import QuadraticVoting.Proofs.Solvency

/-!
# Bookkeeping

What a host can ask of a ledger (`Ledger.Request`), one request after another. A sound ledger
writes the entry that a request can lead to (`Ledger.Entry`) and does what it says, or there is
none, and it refuses the request and stays as it was (`Sound.serve_cases`). So the ledger stays
sound, no balance ever shrinks, and the journal alone gives the ledger back, with every frozen total
that it tells (`Ledger.Kept`).
-/

namespace QuadraticVoting

namespace LedgerEvent

def account : LedgerEvent → Account
  | minted a _ | frozen a .. | thawed a .. => a

/-- The frozen total of the account that an entry tells. -/
def total? : LedgerEvent → Option Int
  | minted .. => none
  | frozen _ _ total | thawed _ _ total => some total

end LedgerEvent

namespace Ledger

inductive Request
  | mint (account : Account) (amount : Int)
  | lock (account : Account) (amount : Int)
  | unlock (account : Account) (amount : Int)
deriving DecidableEq

def serve [Host] (l : Ledger) : Request → Reply Ledger Unit
  | .mint a n => (l.mint a n).map fun _ => ()
  | .lock a n => l.lock a n
  | .unlock a n => l.unlock a n

def serveAll [Host] (l : Ledger) (requests : List Request) : Ledger :=
  requests.foldl (fun l r => (l.serve r).state) l

/-! ### Entries -/

/-- The ledger with one more entry, and with what the entry says done. -/
def enter (l : Ledger) (e : LedgerEvent) : Ledger :=
  { l.apply e with journal := l.journal ++ [e] }

theorem credit_eq_enter (l : Ledger) (a : Account) (n : Int) :
    l.credit a n = l.enter (.minted a n) := rfl

theorem freeze_eq_enter (l : Ledger) (a : Account) (n : Int) :
    l.freeze a n = l.enter (.frozen a n (l.frozenOf a + n)) := rfl

theorem thaw_eq_enter (l : Ledger) (a : Account) (n : Int) :
    l.thaw a n = l.enter (.thawed a n (l.frozenOf a - n)) := rfl

/-- The entry that a request leads to, if it is not refused. -/
inductive Entry (l : Ledger) : Request → LedgerEvent → Prop
  | minted {a : Account} {n : Int} (hg : a.isGiven = true) (h0 : 0 ≤ n)
      (hn : l.issuance + n ≤ maxBalance) : Entry l (.mint a n) (.minted a n)
  | frozen {a : Account} {n : Int} (h0 : 0 ≤ n) (hn : n ≤ l.spendable a) :
      Entry l (.lock a n) (.frozen a n (l.frozenOf a + n))
  | thawed {a : Account} {n : Int} (h0 : 0 ≤ n) (hn : n ≤ l.frozenOf a) :
      Entry l (.unlock a n) (.thawed a n (l.frozenOf a - n))

section Entry

variable {l : Ledger} {r : Request} {e : LedgerEvent}

theorem Entry.sound (he : l.Entry r e) (h : l.Sound) : (l.enter e).Sound := by
  cases he with
  | minted hg h0 hn => exact h.credit h0 hn
  | frozen h0 hn => exact h.freeze h0 hn
  | thawed h0 hn => exact h.thaw h0 hn

theorem Entry.balanceOf_le (he : l.Entry r e) (a : Account) :
    l.balanceOf a ≤ (l.enter e).balanceOf a := by
  cases he with
  | minted hg h0 hn =>
    rw [← credit_eq_enter, balanceOf_credit]
    split <;> omega
  | frozen h0 hn => exact Int.le_refl _
  | thawed h0 hn => exact Int.le_refl _

theorem Entry.total_eq (he : l.Entry r e) {t : Int} (ht : e.total? = some t) :
    t = (l.enter e).frozenOf e.account := by
  cases he with
  | minted hg h0 hn => cases ht
  | @frozen a n h0 hn =>
    cases ht
    rw [← freeze_eq_enter, frozenOf_freeze]
    exact (congrArg (l.frozenOf a + ·) (if_pos rfl)).symm
  | @thawed a n h0 hn =>
    cases ht
    rw [← thaw_eq_enter, frozenOf_thaw]
    exact (congrArg (l.frozenOf a - ·) (if_pos rfl)).symm

variable [Host]

/-- A sound ledger does what an entry says that a request can lead to. -/
theorem Entry.serve_eq (he : l.Entry r e) (h : l.Sound) :
    (l.serve r).result = .ok () ∧ (l.serve r).state = l.enter e := by
  cases he with
  | @minted a n hg h0 hn =>
    refine ⟨?_, (state_mint l a n).trans (if_pos ⟨hg, h0, hn⟩)⟩
    have hok := h.result_mint_iff.2 ⟨hg, h0, hn⟩
    rw [serve, Reply.result_map]
    cases hr : (l.mint a n).result with
    | error f =>
      rw [hr] at hok
      cases hok
    | ok e => rfl
  | @frozen a n h0 hn =>
    exact ⟨h.result_lock_iff.2 ⟨h0, hn⟩, (state_lock l a n).trans (if_pos ⟨h0, hn⟩)⟩
  | @thawed a n h0 hn =>
    exact ⟨h.result_unlock_iff.2 ⟨h0, hn⟩, (state_unlock l a n).trans (if_pos ⟨h0, hn⟩)⟩

theorem Sound.exists_entry (h : l.Sound) (hr : (l.serve r).result = .ok ()) :
    ∃ e, l.Entry r e := by
  cases r with
  | mint a n =>
    rw [serve, Reply.result_map] at hr
    cases hm : (l.mint a n).result with
    | error f =>
      rw [hm] at hr
      cases hr
    | ok e =>
      obtain ⟨hg, h0, hn⟩ := h.result_mint_iff.1 (by rw [hm]; rfl)
      exact ⟨_, .minted hg h0 hn⟩
  | lock a n => exact ⟨_, .frozen (lock_within hr).1 (lock_within hr).2⟩
  | unlock a n => exact ⟨_, .thawed (unlock_within hr).1 (unlock_within hr).2⟩

theorem state_serve_of_no_entry (hn : ∀ e, ¬ l.Entry r e) : (l.serve r).state = l := by
  cases r with
  | mint a n => exact (state_mint l a n).trans (if_neg fun h => hn _ (.minted h.1 h.2.1 h.2.2))
  | lock a n => exact (state_lock l a n).trans (if_neg fun h => hn _ (.frozen h.1 h.2))
  | unlock a n => exact (state_unlock l a n).trans (if_neg fun h => hn _ (.thawed h.1 h.2))

theorem Sound.serve_cases (h : l.Sound) (r : Request) :
    (∃ f, (l.serve r).result = .error f ∧ (l.serve r).state = l) ∨
      ∃ e, l.Entry r e ∧ (l.serve r).result = .ok () ∧ (l.serve r).state = l.enter e := by
  by_cases he : ∃ e, l.Entry r e
  · obtain ⟨e, he⟩ := he
    exact .inr ⟨e, he, he.serve_eq h⟩
  · cases hr : (l.serve r).result with
    | error f => exact .inl ⟨f, rfl, state_serve_of_no_entry (not_exists.1 he)⟩
    | ok u => exact absurd (h.exists_entry hr) he

theorem Sound.serve (h : l.Sound) (r : Request) : (l.serve r).state.Sound := by
  cases r with
  | mint a n => exact h.mint a n
  | lock a n => exact h.lock a n
  | unlock a n => exact h.unlock a n

theorem Sound.balanceOf_le_serve (h : l.Sound) (r : Request) (a : Account) :
    l.balanceOf a ≤ (l.serve r).state.balanceOf a := by
  rcases h.serve_cases r with ⟨f, -, hs⟩ | ⟨e, he, -, hs⟩
  · exact Int.le_of_eq (congrArg (·.balanceOf a) hs.symm)
  · rw [hs]
    exact he.balanceOf_le a

end Entry

/-! ### Reading the journal again -/

theorem apply_journal (l : Ledger) (journal : List LedgerEvent) (e : LedgerEvent) :
    { l with journal := journal }.apply e = { l.apply e with journal := journal } := by
  cases e <;> rfl

theorem replay_concat (symbol : Text) (journal : List LedgerEvent) (e : LedgerEvent) :
    replay symbol (journal ++ [e]) = (replay symbol journal).enter e := by
  unfold replay enter
  rw [List.foldl_append, apply_journal]
  rfl

/-! ### Books in order -/

/-- A sound ledger that its journal gives back. Each entry of the journal that tells a frozen total
tells the one that the entries up to it come to. -/
structure Kept (symbol : Text) (l : Ledger) : Prop where
  sound : l.Sound
  replay_eq : replay symbol l.journal = l
  totals : ∀ earlier e, earlier ++ [e] <+: l.journal → ∀ t, e.total? = some t →
    t = (replay symbol (earlier ++ [e])).frozenOf e.account

namespace Kept

variable {symbol : Text} {l : Ledger}

theorem empty (symbol : Text) : Kept symbol (Ledger.empty symbol) where
  sound := .empty symbol
  replay_eq := rfl
  totals _ _ h := absurd (List.prefix_nil.1 h) (List.append_ne_nil_of_right_ne_nil _ nofun)

theorem enter (h : Kept symbol l) {r : Request} {e : LedgerEvent} (he : l.Entry r e) :
    Kept symbol (l.enter e) where
  sound := he.sound h.sound
  replay_eq := by
    show replay symbol (l.journal ++ [e]) = l.enter e
    rw [replay_concat, h.replay_eq]
  totals earlier e' hp t ht := by
    rcases List.prefix_concat_iff.1 hp with hlast | hbefore
    · obtain ⟨rfl, rfl⟩ := List.append_singleton_inj.1 hlast
      rw [replay_concat, h.replay_eq]
      exact he.total_eq ht
    · exact h.totals earlier e' hbefore t ht

variable [Host]

theorem serve (h : Kept symbol l) (r : Request) : Kept symbol (l.serve r).state := by
  rcases h.sound.serve_cases r with ⟨f, -, hs⟩ | ⟨e, he, -, hs⟩
  · rw [hs]
    exact h
  · rw [hs]
    exact h.enter he

theorem serveAll (h : Kept symbol l) (requests : List Request) :
    Kept symbol (l.serveAll requests) := by
  induction requests generalizing l with
  | nil => exact h
  | cons r rest ih => exact ih (h.serve r)

theorem create (symbol : Text) (opening : List (Account × Int)) :
    Kept symbol (Ledger.create symbol opening).state := by
  unfold Ledger.create
  split
  · exact .empty symbol
  · exact mintAll_keeps (fun l a n h => h.serve (.mint a n)) (.empty symbol) _

end Kept

theorem balanceOf_le_serveAll [Host] {l : Ledger} (h : l.Sound) (requests : List Request)
    (a : Account) : l.balanceOf a ≤ (l.serveAll requests).balanceOf a := by
  induction requests generalizing l with
  | nil => exact Int.le_refl _
  | cons r rest ih => exact Int.le_trans (h.balanceOf_le_serve r a) (ih (h.serve r))

theorem Sound.sumOf_frozen_le {l : Ledger} (h : l.Sound) : l.frozen.sumOf id ≤ l.issuance := by
  rw [← h.issued]
  refine OrdMap.sumOf_le_sumOf (fun n hn => ?_) h.covered
  obtain ⟨a, ha⟩ := OrdMap.mem_values_iff.1 hn
  have hfrozen := h.frozen_nonneg a
  rw [frozenOf, ha] at hfrozen
  exact hfrozen

/-- Whatever a ledger opens with and is asked for, its balances add up to an issuance within the
bound, what is frozen of each is covered by it, and no balance shrinks from then on. A request goes
well if and only if there is an entry for it, and is then done as the entry says; one that fails
changes nothing. The journal gives the ledger back as it is, and every entry that tells a frozen
total tells what the entries up to it come to. -/
theorem serveAll_solvent [Host] (symbol : Text) (opening : List (Account × Int))
    (requests : List Request) :
    let l := (Ledger.create symbol opening).state.serveAll requests
    (l.balances.sumOf id = l.issuance ∧ l.issuance ≤ maxBalance) ∧
      (∀ a, 0 ≤ l.frozenOf a ∧ l.frozenOf a ≤ l.balanceOf a) ∧
      l.frozen.sumOf id ≤ maxBalance ∧
      (∀ later a, l.balanceOf a ≤ (l.serveAll later).balanceOf a) ∧
      (∀ r, (l.serve r).result = .ok () ↔ ∃ e, l.Entry r e) ∧
      (∀ r e, l.Entry r e → (l.serve r).state = l.enter e) ∧
      (∀ r f, (l.serve r).result = .error f → (l.serve r).state = l) ∧
      replay symbol l.journal = l ∧
      ∀ earlier e, earlier ++ [e] <+: l.journal → ∀ t, e.total? = some t →
        t = (replay symbol (earlier ++ [e])).frozenOf e.account := by
  intro l
  have h : Kept symbol l := (Kept.create symbol opening).serveAll requests
  have hfrozen := h.sound.sumOf_frozen_le
  refine ⟨⟨h.sound.issued, h.sound.capped⟩, fun a => ⟨h.sound.frozen_nonneg a, h.sound.covered a⟩,
    Int.le_trans hfrozen h.sound.capped, fun later a => balanceOf_le_serveAll h.sound later a,
    fun r => ⟨h.sound.exists_entry, fun ⟨e, he⟩ => (he.serve_eq h.sound).1⟩,
    fun r e he => (he.serve_eq h.sound).2, fun r f hr => ?_, h.replay_eq, h.totals⟩
  rcases h.sound.serve_cases r with ⟨g, -, hs⟩ | ⟨e, -, hok, -⟩
  · exact hs
  · cases hr.symm.trans hok

/-- Refused requests leave no entry. -/
example :
    let a : Account := .named (.ofChars ['a'])
    ((create (.ofChars ['V']) [(a, 10)]).state.serveAll
      [.lock a 7, .lock a 4, .unlock a 2, .unlock a 9, .mint a (-1)]).journal =
        [.minted a 10, .frozen a 7 7, .thawed a 2 5] := by
  decide

end Ledger

end QuadraticVoting
