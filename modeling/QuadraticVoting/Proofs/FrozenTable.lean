import QuadraticVoting.Proofs.Bookkeeping
import QuadraticVoting.Proofs.Documents

/-!
# The table of frozen amounts

A ledger that shows its frozen amounts lists the accounts that it has an entry for. An amount that
is thawed to nothing loses its entry, but a lock of nothing writes one: an account is hollow
(`Ledger.Hollow`) when the last entry of the journal on its frozen amount is such a lock, made while
nothing was frozen. Nothing else comes to be shown without an amount (`Ledger.Tabled`), so the table
is told by the amounts and the hollow accounts alone.

`Ledger.serveAll_frozen_table` draws the conclusions: when the table lists the positive amounts and
no other, when two ledgers with the same amounts show the same table, and when a lock and an unlock
of the same amount leave what is shown as it was.
-/

namespace QuadraticVoting

namespace OrdMap

variable {κ ν : Type} [DecidableEq κ] {m : OrdMap κ ν} {k : κ} {v w : ν}

theorem erase_of_get?_eq_none (h : m.get? k = none) : m.erase k = m := by
  refine ext_entries (List.filter_eq_self.2 fun e he => ?_)
  have hk : k ∉ m.keys := get?_eq_none_iff.1 h
  have hne : e.1 ≠ k := fun hek => hk (hek ▸ List.mem_map_of_mem he)
  simpa using hne

theorem filter_replaceAt (l : List (κ × ν)) :
    (replaceAt k v l).filter (fun e => e.1 ≠ k) = l.filter fun e => e.1 ≠ k := by
  induction l with
  | nil => rfl
  | cons e l ih =>
    by_cases he : e.1 = k
    · simp [replaceAt, he]
    · rw [replaceAt, if_neg he, List.filter_cons_of_pos (by simpa using he),
        List.filter_cons_of_pos (by simpa using he), ih]

theorem erase_insert_self (m : OrdMap κ ν) (k : κ) (v : ν) :
    (m.insert k v).erase k = m.erase k := by
  refine ext_entries ?_
  unfold insert erase
  split
  · exact filter_replaceAt m.entries
  · simp

theorem replaceAt_replaceAt {l : List (κ × ν)} (h : valueAt k l = some w) :
    replaceAt k w (replaceAt k v l) = l := by
  induction l with
  | nil => cases h
  | cons e l ih =>
    by_cases he : e.1 = k
    · rw [valueAt, if_pos he, Option.some.injEq] at h
      rw [replaceAt, if_pos he, replaceAt, if_pos rfl, ← he, ← h]
    · rw [valueAt, if_neg he] at h
      rw [replaceAt, if_neg he, replaceAt, if_neg he, ih h]

theorem insert_insert_of_get? (h : m.get? k = some w) (v : ν) :
    (m.insert k v).insert k w = m := by
  have hk : k ∈ m.keys := Decidable.not_not.1 fun hn => by
    rw [get?_eq_none_iff.2 hn] at h
    cases h
  have hk' : k ∈ (m.insert k v).keys := by rwa [keys_insert_of_mem m v hk]
  have hentries : (m.insert k v).entries = replaceAt k v m.entries := by
    unfold insert
    rw [dif_pos hk]
  refine ext_entries ?_
  rw [insert, dif_pos hk']
  dsimp only
  rw [hentries]
  exact replaceAt_replaceAt h

end OrdMap

namespace Ledger

/-! ### Hollow accounts -/

/-- The last entry of the journal that moves what is frozen of an account's funds. -/
def lastMove? (l : Ledger) (a : Account) : Option LedgerEvent :=
  (l.journal.filter fun e => e.total?.isSome && e.account = a).getLast?

/-- What is frozen of an account's funds was last moved by a lock of nothing, and nothing was frozen
then. -/
def Hollow (l : Ledger) (a : Account) : Prop := l.lastMove? a = some (.frozen a 0 0)

instance (l : Ledger) (a : Account) : Decidable (l.Hollow a) :=
  inferInstanceAs (Decidable (_ = _))

variable {l l' : Ledger} {r : Request} {e : LedgerEvent} {a b : Account} {n : Int}

theorem lastMove?_enter_of_moves (ht : e.total?.isSome = true) (ha : e.account = a) :
    (l.enter e).lastMove? a = some e := by
  have hjournal : (l.enter e).journal = l.journal ++ [e] := rfl
  unfold lastMove?
  rw [hjournal, List.filter_append, List.filter_cons_of_pos (by simp [ht, ha])]
  exact List.getLast?_concat

theorem hollow_enter_iff (h : e.total?.isSome = true → e.account ≠ a) :
    (l.enter e).Hollow a ↔ l.Hollow a := by
  have hjournal : (l.enter e).journal = l.journal ++ [e] := rfl
  unfold Hollow lastMove?
  rw [hjournal, List.filter_append, List.filter_cons_of_neg (by simpa using h), List.filter_nil,
    List.append_nil]

theorem hollow_credit : (l.credit a n).Hollow b ↔ l.Hollow b :=
  hollow_enter_iff (e := .minted a n) nofun

theorem hollow_freeze_self : (l.freeze a n).Hollow a ↔ n = 0 ∧ l.frozenOf a + n = 0 := by
  rw [Hollow, freeze_eq_enter, lastMove?_enter_of_moves (a := a) rfl rfl]
  simp

theorem hollow_freeze_of_ne (h : b ≠ a) : (l.freeze a n).Hollow b ↔ l.Hollow b :=
  hollow_enter_iff (e := .frozen a n (l.frozenOf a + n)) fun _ => Ne.symm h

theorem not_hollow_thaw_self : ¬ (l.thaw a n).Hollow a := by
  rw [Hollow, thaw_eq_enter, lastMove?_enter_of_moves (a := a) rfl rfl]
  nofun

theorem hollow_thaw_of_ne (h : b ≠ a) : (l.thaw a n).Hollow b ↔ l.Hollow b :=
  hollow_enter_iff (e := .thawed a n (l.frozenOf a - n)) fun _ => Ne.symm h

/-! ### What is in the table -/

/-- A sound ledger whose table lists the positive amounts, and the hollow accounts with nothing. -/
structure Tabled (l : Ledger) : Prop where
  sound : l.Sound
  nothing : ∀ {a}, l.Hollow a → l.frozenOf a = 0
  get?_eq : ∀ a, l.frozen.get? a =
    if 0 < l.frozenOf a ∨ l.Hollow a then some (l.frozenOf a) else none

namespace Tabled

theorem empty (symbol : Text) : Tabled (Ledger.empty symbol) where
  sound := .empty symbol
  nothing _ := rfl
  get?_eq _ := rfl

theorem credit (h : l.Tabled) (h0 : 0 ≤ n) (hn : l.issuance + n ≤ maxBalance) :
    (l.credit a n).Tabled where
  sound := h.sound.credit h0 hn
  nothing hb := h.nothing (hollow_credit.1 hb)
  get?_eq b := by
    rw [if_congr (or_congr Iff.rfl hollow_credit) rfl rfl]
    exact h.get?_eq b

theorem freeze (h : l.Tabled) (h0 : 0 ≤ n) (hn : n ≤ l.spendable a) : (l.freeze a n).Tabled where
  sound := h.sound.freeze h0 hn
  nothing {b} hb := by
    rw [frozenOf_freeze]
    by_cases hba : b = a
    · subst hba
      rw [if_pos rfl]
      exact (hollow_freeze_self.1 hb).2
    · rw [if_neg hba, h.nothing ((hollow_freeze_of_ne hba).1 hb)]
      rfl
  get?_eq b := by
    have hget : (l.freeze a n).frozen.get? b =
        if b = a then some (l.frozenOf a + n) else l.frozen.get? b := OrdMap.get?_insert ..
    rw [hget, frozenOf_freeze]
    by_cases hba : b = a
    · subst hba
      -- Either something is frozen now, or nothing was locked and nothing was frozen before.
      have hshown : 0 < l.frozenOf b + n ∨ (l.freeze b n).Hollow b := by
        have := h.sound.frozen_nonneg b
        rw [hollow_freeze_self]
        omega
      rw [if_pos rfl, if_pos rfl, if_pos hshown]
    · rw [if_neg hba, if_neg hba, Int.add_zero, h.get?_eq b]
      exact if_congr (or_congr Iff.rfl (hollow_freeze_of_ne hba).symm) rfl rfl

theorem thaw (h : l.Tabled) (h0 : 0 ≤ n) (hn : n ≤ l.frozenOf a) : (l.thaw a n).Tabled where
  sound := h.sound.thaw h0 hn
  nothing {b} hb := by
    rw [frozenOf_thaw]
    by_cases hba : b = a
    · exact absurd (hba ▸ hb) not_hollow_thaw_self
    · rw [if_neg hba, h.nothing ((hollow_thaw_of_ne hba).1 hb)]
      rfl
  get?_eq b := by
    rw [frozenOf_thaw]
    by_cases hba : b = a
    · subst hba
      rw [if_pos rfl]
      unfold Ledger.thaw
      dsimp only
      split
      · next hrest =>
        have hgone : ¬ (0 < l.frozenOf b - n ∨ (l.thaw b n).Hollow b) :=
          not_or.2 ⟨by omega, not_hollow_thaw_self⟩
        rw [OrdMap.get?_erase_self]
        exact (if_neg hgone).symm
      · next hrest =>
        have hleft : 0 < l.frozenOf b - n ∨ (l.thaw b n).Hollow b := .inl (by omega)
        rw [OrdMap.get?_insert_self]
        exact (if_pos hleft).symm
    · have hget : (l.thaw a n).frozen.get? b = l.frozen.get? b := by
        unfold Ledger.thaw
        dsimp only
        split
        · exact OrdMap.get?_erase_of_ne _ hba
        · exact OrdMap.get?_insert_of_ne _ _ hba
      rw [hget, if_neg hba, Int.sub_zero, h.get?_eq b]
      exact if_congr (or_congr Iff.rfl (hollow_thaw_of_ne hba).symm) rfl rfl

variable [Host]

theorem serve (h : l.Tabled) (r : Request) : (l.serve r).state.Tabled := by
  rcases h.sound.serve_cases r with ⟨f, -, hs⟩ | ⟨e, he, -, hs⟩
  · rw [hs]
    exact h
  · rw [hs]
    cases he with
    | minted hg h0 hn => exact h.credit h0 hn
    | frozen h0 hn => exact h.freeze h0 hn
    | thawed h0 hn => exact h.thaw h0 hn

theorem serveAll (h : l.Tabled) (requests : List Request) : (l.serveAll requests).Tabled := by
  induction requests generalizing l with
  | nil => exact h
  | cons r rest ih => exact ih (h.serve r)

theorem create (symbol : Text) (opening : List (Account × Int)) :
    (Ledger.create symbol opening).state.Tabled := by
  unfold Ledger.create
  split
  · exact .empty symbol
  · exact mintAll_keeps (fun l a n h => h.serve (.mint a n)) (.empty symbol) _

end Tabled

/-! ### Hollow accounts along a run -/

/-- Only a lock of nothing makes an account hollow. -/
theorem Entry.not_hollow (he : l.Entry r e) (h : ¬ l.Hollow a) (hr : r ≠ .lock a 0) :
    ¬ (l.enter e).Hollow a := by
  cases he with
  | minted hg h0 hn => exact fun hh => h (hollow_credit.1 hh)
  | @frozen b n h0 hn =>
    by_cases hab : a = b
    · subst hab
      exact fun hh => hr ((hollow_freeze_self.1 hh).1 ▸ rfl)
    · exact fun hh => h ((hollow_freeze_of_ne hab).1 hh)
  | @thawed b n h0 hn =>
    by_cases hab : a = b
    · subst hab
      exact not_hollow_thaw_self
    · exact fun hh => h ((hollow_thaw_of_ne hab).1 hh)

theorem not_hollow_serveAll [Host] (hs : l.Sound) {requests : List Request} (h : ¬ l.Hollow a)
    (hr : .lock a 0 ∉ requests) : ¬ (l.serveAll requests).Hollow a := by
  induction requests generalizing l with
  | nil => exact h
  | cons r rest ih =>
    rw [List.mem_cons, not_or] at hr
    have hstep : ¬ (l.serve r).state.Hollow a := by
      rcases hs.serve_cases r with ⟨f, -, hstate⟩ | ⟨e, he, -, hstate⟩
      · rw [hstate]
        exact h
      · rw [hstate]
        exact he.not_hollow h (Ne.symm hr.1)
    exact ih (hs.serve r) hstep hr.2

theorem not_hollow_create [Host] (symbol : Text) (opening : List (Account × Int)) (a : Account) :
    ¬ (create symbol opening).state.Hollow a := by
  have hnone : ∀ s, ¬ (Ledger.empty s).Hollow a := fun s => nofun
  unfold create
  split
  · exact hnone symbol
  · refine mintAll_keeps (P := fun l => ¬ l.Hollow a) (fun l b n h => ?_) (hnone symbol) _
    rw [state_mint]
    split
    · exact fun hh => h (hollow_credit.1 hh)
    · exact h

/-! ### What is shown -/

/-- What is locked and unlocked again leaves the table as it was, but for an entry without an
amount. -/
theorem frozen_thaw_freeze (l : Ledger) (a : Account) (n : Int) :
    ((l.freeze a n).thaw a n).frozen =
      if l.frozenOf a = 0 then l.frozen.erase a else l.frozen := by
  have hrest : (l.freeze a n).frozenOf a - n = l.frozenOf a := by
    rw [frozenOf_freeze, if_pos rfl]
    omega
  unfold thaw
  dsimp only
  rw [hrest]
  split
  · exact OrdMap.erase_insert_self ..
  · next h =>
    refine OrdMap.insert_insert_of_get? ?_ _
    unfold frozenOf at h ⊢
    cases hget : l.frozen.get? a with
    | none =>
      rw [hget] at h
      exact absurd rfl h
    | some v => rfl

namespace Tabled

theorem frozen_eq_iff (h : l.Tabled) (h' : l'.Tabled) (hf : ∀ a, l'.frozenOf a = l.frozenOf a) :
    l'.document.frozen = l.document.frozen ↔ ∀ a, l'.Hollow a ↔ l.Hollow a := by
  constructor
  · intro he a
    have hshown := congrFun he a
    -- Of a hollow account something is shown and nothing is frozen.
    have hone : ∀ {l l' : Ledger}, l.Tabled → l'.Tabled → l'.frozenOf a = l.frozenOf a →
        l'.document.frozen a = l.document.frozen a → l.Hollow a → l'.Hollow a := by
      intro l l' h h' hf he hh
      have hzero := h.nothing hh
      have hget : l'.frozen.get? a = l.frozen.get? a := he
      rw [h.get?_eq a, if_pos (.inr hh), h'.get?_eq a] at hget
      split at hget
      · next hshown => exact hshown.resolve_left (by omega)
      · cases hget
    exact ⟨hone h' h (hf a).symm hshown.symm, hone h h' (hf a) hshown⟩
  · intro hh
    funext a
    show l'.frozen.get? a = l.frozen.get? a
    rw [h'.get?_eq a, h.get?_eq a, hf a]
    exact if_congr (or_congr Iff.rfl (hh a)) rfl rfl

theorem isSome_frozen_iff (h : l.Tabled) (a : Account) :
    (l.document.frozen a).isSome = true ↔ 0 < l.frozenOf a ∨ l.Hollow a := by
  show (l.frozen.get? a).isSome = true ↔ _
  rw [h.get?_eq a]
  split
  · next hs => exact iff_of_true rfl hs
  · next hs => exact iff_of_false nofun hs

/-- A lock that succeeds can be taken back, and then all is shown as before, unless the account was
hollow. -/
theorem unlock_lock [Host] (h : l.Tabled) (hr : (l.lock a n).result = .ok ()) :
    let back := (l.lock a n).state.unlock a n
    back.result = .ok () ∧ (back.state.document = l.document ↔ ¬ l.Hollow a) ∧
      (¬ l.Hollow a → back.state.toValue = l.toValue) := by
  obtain ⟨h0, hn⟩ := lock_within hr
  have hlock : (l.lock a n).state = l.freeze a n := (state_lock l a n).trans (if_pos ⟨h0, hn⟩)
  have hheld : 0 ≤ n ∧ n ≤ (l.freeze a n).frozenOf a := by
    have := h.sound.frozen_nonneg a
    rw [frozenOf_freeze, if_pos rfl]
    omega
  have hback : ((l.freeze a n).unlock a n).state = (l.freeze a n).thaw a n :=
    (state_unlock ..).trans (if_pos hheld)
  have hsame : ¬ l.Hollow a → ((l.freeze a n).thaw a n).frozen = l.frozen := by
    intro hh
    rw [frozen_thaw_freeze]
    split
    · next hzero =>
      refine OrdMap.erase_of_get?_eq_none ((h.get?_eq a).trans (if_neg ?_))
      exact not_or.2 ⟨by omega, hh⟩
    · rfl
  dsimp only
  rw [hlock, hback]
  refine ⟨(h.sound.freeze h0 hn).result_unlock_iff.2 hheld, ⟨fun he hh => ?_, fun hh => ?_⟩,
    fun hh => ?_⟩
  · have hget : ((l.freeze a n).thaw a n).frozen.get? a = l.frozen.get? a :=
      congrFun (congrArg Document.frozen he) a
    rw [frozen_thaw_freeze, if_pos (h.nothing hh), OrdMap.get?_erase_self, h.get?_eq a,
      if_pos (.inr hh)] at hget
    cases hget
  · unfold document
    rw [hsame hh]
    rfl
  · unfold toValue
    rw [hsame hh]
    rfl

end Tabled

/-- Whatever a ledger opens with and is asked for, its table lists the accounts of which something
is frozen, and the hollow ones with nothing. So it lists those alone of which something is frozen if
and only if no account is hollow; two ledgers with the same frozen amounts show the same table if
and only if the same accounts are hollow in both; and a lock that is taken back restores what is
shown if and only if the account was not hollow. Without a lock of nothing no account is. -/
theorem serveAll_frozen_table [Host] (symbol : Text) (opening : List (Account × Int))
    (requests : List Request) :
    let l := (create symbol opening).state.serveAll requests
    (∀ a, l.document.frozen a = if 0 < l.frozenOf a then some (l.frozenOf a)
      else if l.Hollow a then some 0 else none) ∧
      ((∀ a, (l.document.frozen a).isSome = true ↔ 0 < l.frozenOf a) ↔ ∀ a, ¬ l.Hollow a) ∧
      (∀ symbol' opening' requests',
        let l' := (create symbol' opening').state.serveAll requests'
        (∀ a, l'.frozenOf a = l.frozenOf a) →
          (l'.document.frozen = l.document.frozen ↔ ∀ a, l'.Hollow a ↔ l.Hollow a)) ∧
      (∀ a n, (l.lock a n).result = .ok () →
        let back := (l.lock a n).state.unlock a n
        back.result = .ok () ∧ (back.state.document = l.document ↔ ¬ l.Hollow a) ∧
          (¬ l.Hollow a → back.state.toValue = l.toValue)) ∧
      ∀ a, Request.lock a 0 ∉ requests → ¬ l.Hollow a := by
  intro l
  have h : l.Tabled := (Tabled.create symbol opening).serveAll requests
  refine ⟨fun a => ?_, ⟨fun hall a hh => ?_, fun hnone a => ?_⟩, ?_, fun a n => h.unlock_lock, ?_⟩
  · refine (h.get?_eq a).trans ?_
    by_cases hpos : 0 < l.frozenOf a
    · rw [if_pos (.inl hpos), if_pos hpos]
    · rw [if_neg hpos]
      by_cases hh : l.Hollow a
      · rw [if_pos (.inr hh), if_pos hh, h.nothing hh]
      · rw [if_neg (not_or.2 ⟨hpos, hh⟩), if_neg hh]
  · have hpos := (hall a).1 ((h.isSome_frozen_iff a).2 (.inr hh))
    have hzero := h.nothing hh
    omega
  · rw [h.isSome_frozen_iff a]
    exact or_iff_left (hnone a)
  · intro symbol' opening' requests' l' hf
    exact h.frozen_eq_iff ((Tabled.create symbol' opening').serveAll requests') hf
  · exact fun a => not_hollow_serveAll (Tabled.create symbol opening).sound
      (not_hollow_create symbol opening a)

/-- An account has locked twice and unlocked once what it locked first; another lock of it, taken
back, shows the same again. -/
theorem serveAll_frozen_table_partial :
    let ann := Account.named (.ofChars ['a'])
    let bob := Account.named (.ofChars ['b'])
    let symbol := Text.ofChars ['V']
    let requests : List Request :=
      [.lock ann 4, .lock bob 9, .lock ann 3, .lock bob 1, .unlock ann 4, .unlock bob 9]
    let l := (create symbol [(ann, 10), (bob, 9)]).state.serveAll requests
    let l' := (create symbol [(ann, 3)]).state.serveAll [.lock ann 3]
    l.frozen.entries = [(ann, 3)] ∧ (∀ a, (l.document.frozen a).isSome = true ↔ 0 < l.frozenOf a) ∧
      l'.document.frozen = l.document.frozen ∧
      (l.lock bob 0).result = .ok () ∧
      ((l.lock bob 0).state.unlock bob 0).state.document = l.document := by
  intro ann bob symbol requests l l'
  obtain ⟨-, hlisted, hsame, hback, hhollow⟩ :=
    serveAll_frozen_table symbol [(ann, 10), (bob, 9)] requests
  have hnone : ∀ a, ¬ l.Hollow a := fun a => hhollow a (by simp [requests])
  have hnone' : ∀ a, ¬ l'.Hollow a := fun a =>
    (serveAll_frozen_table symbol [(ann, 3)] [.lock ann 3]).2.2.2.2 a (by simp)
  have hentries : l.frozen.entries = [(ann, 3)] := by decide
  have hentries' : l'.frozen = l.frozen := by decide
  have hf : ∀ a, l'.frozenOf a = l.frozenOf a := fun a => by rw [frozenOf, hentries', frozenOf]
  have hlock : (l.lock bob 0).result = .ok () := by decide
  exact ⟨hentries, hlisted.2 hnone,
    (hsame symbol [(ann, 3)] [.lock ann 3] hf).2 fun a => iff_of_false (hnone' a) (hnone a),
    hlock, (hback bob 0 hlock).2.1.2 (hnone bob)⟩

/-- After a lock of nothing an account of which nothing is frozen is shown, which it was not before;
and a lock that is taken back then takes it out again. -/
theorem lock_of_nothing_is_shown :
    let ann := Account.named (.ofChars ['a'])
    let l := (create (.ofChars ['V']) [(ann, 10)]).state
    let l' := l.serveAll [.lock ann 0]
    l'.frozenOf ann = 0 ∧ l'.document.frozen ann = some 0 ∧
      (∀ a, l'.frozenOf a = l.frozenOf a) ∧ l'.document.frozen ≠ l.document.frozen ∧
      (l'.lock ann 3).result = .ok () ∧
      ((l'.lock ann 3).state.unlock ann 3).state.document ≠ l'.document := by
  intro ann l l'
  have hfreeze : l' = l.freeze ann 0 := by decide
  have hshown : l'.document.frozen ann = some 0 := by decide
  refine ⟨by decide, hshown, fun a => ?_, fun he => ?_, by decide, fun he => ?_⟩
  · rw [hfreeze, frozenOf_freeze, ite_self, Int.add_zero]
  · have hbefore : l.document.frozen ann = none := by decide
    rw [← he, hshown] at hbefore
    cases hbefore
  · have hafter : ((l'.lock ann 3).state.unlock ann 3).state.document.frozen ann = none := by decide
    rw [he, hshown] at hafter
    cases hafter

end Ledger

end QuadraticVoting
