import QuadraticVoting.FundLock
import QuadraticVoting.Proofs.Sums

/-!
# Solvency of the ledger

`Ledger.Sound`: every frozen amount is covered by its balance, and the balances add up to an
issuance of at most `maxBalance`. Minting, locking and unlocking keep a ledger sound, whether they
are refused or not. A refused call leaves a sound ledger as it was, and a lock within what can be
spent, or an unlock within what is frozen, is never refused.
-/

namespace QuadraticVoting

theorem Value.isWritable_of_le {n : Int} (h0 : 0 ≤ n) (h : n ≤ maxBalance) :
    Value.isWritable n = true := by
  have hb : maxBalance.toNat < Value.writtenBound := by decide
  have hm : 0 ≤ maxBalance := by decide
  simp only [Value.isWritable, decide_eq_true_eq]
  omega

namespace Ledger

structure Sound (l : Ledger) : Prop where
  frozen_nonneg : ∀ a, 0 ≤ l.frozenOf a
  covered : ∀ a, l.frozenOf a ≤ l.balanceOf a
  issued : l.balances.sumOf id = l.issuance
  capped : l.issuance ≤ maxBalance

/-! ### The three moves -/

def credit (l : Ledger) (a : Account) (n : Int) : Ledger :=
  { l with
    balances := l.balances.insert a (l.balanceOf a + n)
    issuance := l.issuance + n
    journal := l.journal ++ [.minted a n] }

def freeze (l : Ledger) (a : Account) (n : Int) : Ledger :=
  { l with
    frozen := l.frozen.insert a (l.frozenOf a + n)
    journal := l.journal ++ [.frozen a n (l.frozenOf a + n)] }

def thaw (l : Ledger) (a : Account) (n : Int) : Ledger :=
  { l with
    frozen := if l.frozenOf a - n = 0 then l.frozen.erase a
      else l.frozen.insert a (l.frozenOf a - n)
    journal := l.journal ++ [.thawed a n (l.frozenOf a - n)] }

theorem state_mint [Host] (l : Ledger) (a : Account) (n : Int) : (l.mint a n).state =
    if a.isGiven = true ∧ 0 ≤ n ∧ l.issuance + n ≤ maxBalance then l.credit a n else l := by
  unfold mint
  split
  · next h =>
    rw [if_neg fun hc => by simp [hc.1] at h]
    rfl
  · next h =>
    have hg : a.isGiven = true := by simpa using h
    split
    · rw [if_neg (by omega)]
      rfl
    · split
      · rw [if_neg (by omega)]
        rfl
      · rw [if_pos ⟨hg, by omega, by omega⟩, Reply.state_announce]
        rfl

theorem state_lock [Host] (l : Ledger) (a : Account) (n : Int) : (l.lock a n).state =
    if 0 ≤ n ∧ n ≤ l.spendable a then l.freeze a n else l := by
  unfold lock
  split
  · rw [if_neg (by omega)]
    rfl
  · split
    · rw [if_neg (by omega)]
      rfl
    · rw [if_pos (by omega), Reply.state_announce]
      rfl

theorem state_unlock [Host] (l : Ledger) (a : Account) (n : Int) : (l.unlock a n).state =
    if 0 ≤ n ∧ n ≤ l.frozenOf a then l.thaw a n else l := by
  unfold unlock
  split
  · rw [if_neg (by omega)]
    rfl
  · split
    · rw [if_neg (by omega)]
      rfl
    · rw [if_pos (by omega), Reply.state_announce]
      rfl

theorem balanceOf_credit (l : Ledger) (a b : Account) (n : Int) :
    (l.credit a n).balanceOf b = l.balanceOf b + if b = a then n else 0 := by
  unfold balanceOf credit
  rw [OrdMap.get?_insert]
  by_cases h : b = a
  · subst h
    simp [balanceOf]
  · simp [h]

@[simp] theorem frozenOf_credit (l : Ledger) (a b : Account) (n : Int) :
    (l.credit a n).frozenOf b = l.frozenOf b := rfl

theorem frozenOf_freeze (l : Ledger) (a b : Account) (n : Int) :
    (l.freeze a n).frozenOf b = l.frozenOf b + if b = a then n else 0 := by
  unfold frozenOf freeze
  rw [OrdMap.get?_insert]
  by_cases h : b = a
  · subst h
    simp [frozenOf]
  · simp [h]

@[simp] theorem balanceOf_freeze (l : Ledger) (a b : Account) (n : Int) :
    (l.freeze a n).balanceOf b = l.balanceOf b := rfl

theorem frozenOf_thaw (l : Ledger) (a b : Account) (n : Int) :
    (l.thaw a n).frozenOf b = l.frozenOf b - if b = a then n else 0 := by
  by_cases h : b = a
  · subst h
    rw [if_pos rfl]
    unfold frozenOf thaw
    dsimp only
    split
    · next h0 => rw [OrdMap.get?_erase_self]; exact h0.symm
    · rw [OrdMap.get?_insert_self]; rfl
  · rw [if_neg h]
    unfold frozenOf thaw
    dsimp only
    split
    · rw [OrdMap.get?_erase_of_ne _ h]; omega
    · rw [OrdMap.get?_insert_of_ne _ _ h]; omega

@[simp] theorem balanceOf_thaw (l : Ledger) (a b : Account) (n : Int) :
    (l.thaw a n).balanceOf b = l.balanceOf b := rfl

/-! ### Soundness -/

namespace Sound

variable {l : Ledger} {a : Account} {n : Int}

theorem empty (symbol : Text) : Sound (Ledger.empty symbol) where
  frozen_nonneg _ := Int.le_refl 0
  covered _ := Int.le_refl 0
  issued := rfl
  capped := show (0 : Int) ≤ maxBalance by decide

theorem balance_nonneg (h : Sound l) (a : Account) : 0 ≤ l.balanceOf a :=
  Int.le_trans (h.frozen_nonneg a) (h.covered a)

theorem spendable_nonneg (h : Sound l) (a : Account) : 0 ≤ l.spendable a := by
  have := h.covered a
  unfold spendable
  omega

theorem values_nonneg (h : Sound l) : ∀ v ∈ l.balances.values, 0 ≤ id v := by
  intro v hv
  obtain ⟨a, ha⟩ := OrdMap.mem_values_iff.1 hv
  have := h.balance_nonneg a
  rw [balanceOf, ha] at this
  exact this

theorem issuance_nonneg (h : Sound l) : 0 ≤ l.issuance := by
  rw [← h.issued]
  exact OrdMap.sumOf_nonneg h.values_nonneg

theorem balance_le_issuance (h : Sound l) (a : Account) : l.balanceOf a ≤ l.issuance := by
  cases hb : l.balances.get? a with
  | none =>
    rw [balanceOf, hb]
    exact h.issuance_nonneg
  | some v =>
    rw [balanceOf, hb, ← h.issued]
    exact OrdMap.le_sumOf (f := id) h.values_nonneg hb

theorem isWritable_of_le_balance (h : Sound l) (h0 : 0 ≤ n) (hn : n ≤ l.balanceOf a) :
    Value.isWritable n = true := by
  have := h.balance_le_issuance a
  have := h.capped
  exact Value.isWritable_of_le h0 (by omega)

theorem credit (h : Sound l) (h0 : 0 ≤ n) (hn : l.issuance + n ≤ maxBalance) :
    Sound (l.credit a n) where
  frozen_nonneg := h.frozen_nonneg
  covered b := by
    have := h.covered b
    rw [balanceOf_credit, frozenOf_credit]
    split <;> omega
  issued := by
    have hs := OrdMap.sumOf_insert l.balances id a (l.balanceOf a + n)
    have hi := h.issued
    have hb : ((l.balances.get? a).map id).getD 0 = l.balanceOf a := by simp [balanceOf]
    show (l.balances.insert a (l.balanceOf a + n)).sumOf id = l.issuance + n
    rw [hs, hb, hi, id]
    omega
  capped := hn

theorem freeze (h : Sound l) (h0 : 0 ≤ n) (hn : n ≤ l.spendable a) : Sound (l.freeze a n) where
  frozen_nonneg b := by
    have := h.frozen_nonneg b
    rw [frozenOf_freeze]
    split <;> omega
  covered b := by
    have hb := h.covered b
    rw [frozenOf_freeze, balanceOf_freeze]
    by_cases e : b = a
    · subst e
      unfold spendable at hn
      rw [if_pos rfl]
      omega
    · rw [if_neg e]
      omega
  issued := h.issued
  capped := h.capped

theorem thaw (h : Sound l) (h0 : 0 ≤ n) (hn : n ≤ l.frozenOf a) : Sound (l.thaw a n) where
  frozen_nonneg b := by
    have hb := h.frozen_nonneg b
    rw [frozenOf_thaw]
    by_cases e : b = a
    · subst e
      rw [if_pos rfl]
      omega
    · rw [if_neg e]
      omega
  covered b := by
    have := h.covered b
    rw [frozenOf_thaw, balanceOf_thaw]
    split <;> omega
  issued := h.issued
  capped := h.capped

variable [Host]

theorem mint (h : Sound l) (a : Account) (n : Int) : Sound (l.mint a n).state := by
  rw [state_mint]
  split
  · next hc => exact h.credit hc.2.1 hc.2.2
  · exact h

theorem lock (h : Sound l) (a : Account) (n : Int) : Sound (l.lock a n).state := by
  rw [state_lock]
  split
  · next hc => exact h.freeze hc.1 hc.2
  · exact h

theorem unlock (h : Sound l) (a : Account) (n : Int) : Sound (l.unlock a n).state := by
  rw [state_unlock]
  split
  · next hc => exact h.thaw hc.1 hc.2
  · exact h

end Sound

/-! ### What is refused -/

theorem lock_within [Host] {l : Ledger} {a : Account} {n : Int} (h : (l.lock a n).result = .ok ()) :
    0 ≤ n ∧ n ≤ l.spendable a := by
  unfold lock at h
  split at h
  · cases h
  · split at h
    · cases h
    · omega

theorem unlock_within [Host] {l : Ledger} {a : Account} {n : Int}
    (h : (l.unlock a n).result = .ok ()) : 0 ≤ n ∧ n ≤ l.frozenOf a := by
  unfold unlock at h
  split at h
  · cases h
  · split at h
    · cases h
    · omega

namespace Sound

variable [Host] {l : Ledger} {a : Account} {n : Int}

theorem result_lock_iff (h : Sound l) :
    (l.lock a n).result = .ok () ↔ 0 ≤ n ∧ n ≤ l.spendable a := by
  refine ⟨lock_within, fun ⟨h0, hn⟩ => ?_⟩
  have hf := h.frozen_nonneg a
  have hs : n + l.frozenOf a ≤ l.balanceOf a := by unfold spendable at hn; omega
  unfold Ledger.lock
  rw [if_neg (by omega), if_neg (by omega), Reply.announce_of_isWritable]
  intro k hk
  simp only [Log.Notice.integers, List.mem_cons, List.not_mem_nil, or_false] at hk
  refine h.isWritable_of_le_balance (a := a) ?_ ?_ <;> omega

theorem result_unlock_iff (h : Sound l) :
    (l.unlock a n).result = .ok () ↔ 0 ≤ n ∧ n ≤ l.frozenOf a := by
  refine ⟨unlock_within, fun ⟨h0, hn⟩ => ?_⟩
  have hc := h.covered a
  unfold Ledger.unlock
  rw [if_neg (by omega), if_neg (by omega), Reply.announce_of_isWritable]
  intro k hk
  simp only [Log.Notice.integers, List.mem_cons, List.not_mem_nil, or_false] at hk
  refine h.isWritable_of_le_balance (a := a) ?_ ?_ <;> omega

theorem result_mint_iff (h : Sound l) : ((l.mint a n).result).isOk = true ↔
    a.isGiven = true ∧ 0 ≤ n ∧ l.issuance + n ≤ maxBalance := by
  have hi := h.issuance_nonneg
  unfold Ledger.mint
  split
  · next hg => simp_all [Except.isOk, Except.toBool]
  · next hg =>
    split
    · simp [Except.isOk, Except.toBool]
      omega
    · split
      · simp [Except.isOk, Except.toBool]
        omega
      · rw [Reply.announce_of_isWritable]
        · simp_all [Except.isOk, Except.toBool]
        · intro k hk
          simp only [Log.Notice.integers, List.mem_cons, List.not_mem_nil, or_false] at hk
          subst hk
          exact Value.isWritable_of_le (by omega) (by omega)

end Sound

/-! ### Adjusting by a difference -/

/-- The ledger after an adjustment that was not refused. -/
def shift (l : Ledger) (a : Account) (d : Int) : Ledger :=
  if 0 < d then l.freeze a d else if d < 0 then l.thaw a (-d) else l

theorem frozenOf_shift (l : Ledger) (a b : Account) (d : Int) :
    (l.shift a d).frozenOf b = l.frozenOf b + if b = a then d else 0 := by
  unfold shift
  split
  · exact frozenOf_freeze ..
  · split
    · rw [frozenOf_thaw]
      split <;> omega
    · split <;> omega

variable [Host]

theorem minted_lock (l : Ledger) (a : Account) (n : Int) :
    (l.lock a n).state.balances = l.balances ∧ (l.lock a n).state.issuance = l.issuance := by
  rw [state_lock]
  split <;> exact ⟨rfl, rfl⟩

theorem minted_unlock (l : Ledger) (a : Account) (n : Int) :
    (l.unlock a n).state.balances = l.balances ∧ (l.unlock a n).state.issuance = l.issuance := by
  rw [state_unlock]
  split <;> exact ⟨rfl, rfl⟩

theorem minted_adjust (l : Ledger) (a : Account) (d : Int) :
    (FundLock.adjust l a d).state.balances = l.balances ∧
      (FundLock.adjust l a d).state.issuance = l.issuance := by
  unfold FundLock.adjust
  split
  · exact minted_lock l a d
  · split
    · exact minted_unlock l a (-d)
    · exact ⟨rfl, rfl⟩

theorem state_adjust_of_ok {l : Ledger} {a : Account} {d : Int}
    (h : (FundLock.adjust l a d).result = .ok ()) :
    (FundLock.adjust l a d).state = l.shift a d := by
  unfold shift
  rcases lt_trichotomy 0 d with hd | hd | hd
  · rw [FundLock.adjust_of_pos _ _ hd] at h ⊢
    rw [if_pos hd]
    exact (state_lock l a d).trans (if_pos (lock_within h))
  · subst hd
    rfl
  · rw [FundLock.adjust_of_neg _ _ hd] at h ⊢
    rw [if_neg (by omega), if_pos hd]
    exact (state_unlock l a (-d)).trans (if_pos (unlock_within h))

namespace Sound

variable {l : Ledger} {a : Account} {d : Int}

theorem adjust (h : Sound l) (a : Account) (d : Int) : Sound (FundLock.adjust l a d).state := by
  rcases lt_trichotomy 0 d with hd | hd | hd
  · rw [FundLock.adjust_of_pos _ _ hd]
    exact h.lock a d
  · subst hd
    exact h
  · rw [FundLock.adjust_of_neg _ _ hd]
    exact h.unlock a (-d)

theorem state_lock_of_error (h : Sound l) {f : Fault} (hr : (l.lock a d).result = .error f) :
    (l.lock a d).state = l := by
  refine (state_lock l a d).trans (if_neg fun hc => ?_)
  rw [h.result_lock_iff.2 hc] at hr
  cases hr

theorem state_unlock_of_error (h : Sound l) {f : Fault} (hr : (l.unlock a d).result = .error f) :
    (l.unlock a d).state = l := by
  refine (state_unlock l a d).trans (if_neg fun hc => ?_)
  rw [h.result_unlock_iff.2 hc] at hr
  cases hr

theorem state_adjust_of_error (h : Sound l) {f : Fault}
    (hr : (FundLock.adjust l a d).result = .error f) : (FundLock.adjust l a d).state = l := by
  rcases lt_trichotomy 0 d with hd | hd | hd
  · rw [FundLock.adjust_of_pos _ _ hd] at hr ⊢
    exact h.state_lock_of_error hr
  · subst hd
    rfl
  · rw [FundLock.adjust_of_neg _ _ hd] at hr ⊢
    exact h.state_unlock_of_error hr

end Sound

/-! ### Opening balances -/

theorem mintAll_of_error {r : Reply Ledger Unit} {f : Fault} (h : r.result = .error f)
    (entries : List (Account × Int)) : (create.mintAll r entries).result = .error f := by
  induction entries generalizing r with
  | nil => exact h
  | cons e rest ih =>
    rw [create.mintAll, Reply.andThen_of_error h]
    exact ih rfl

theorem mintAll_cons_ok {r : Reply Ledger Unit} {e : Account × Int} {rest : List (Account × Int)}
    (h : (create.mintAll r (e :: rest)).result = .ok ()) :
    (r.state.mint e.1 e.2).result.isOk = true ∧
      ∃ r' : Reply Ledger Unit, r'.state = (r.state.mint e.1 e.2).state ∧
        create.mintAll r (e :: rest) = create.mintAll r' rest := by
  rw [create.mintAll] at h
  cases hr : r.result with
  | error f =>
    rw [Reply.andThen_of_error hr, mintAll_of_error rfl] at h
    cases h
  | ok u =>
    refine ⟨?_, _, ?_, rfl⟩
    · cases hm : (r.state.mint e.1 e.2).result with
      | error f =>
        have hfail : (r.andThen fun l _ => (l.mint e.1 e.2).map fun _ => ()).result = .error f := by
          rw [Reply.andThen_of_ok hr, Reply.result_map, hm]
          rfl
        rw [mintAll_of_error hfail] at h
        cases h
      | ok ev => rfl
    · rw [Reply.andThen_of_ok hr]
      rfl

theorem mintAll_keeps {P : Ledger → Prop} (hmint : ∀ l a n, P l → P (l.mint a n).state)
    {r : Reply Ledger Unit} (h : P r.state) (entries : List (Account × Int)) :
    P (create.mintAll r entries).state := by
  induction entries generalizing r with
  | nil => exact h
  | cons e rest ih =>
    refine ih ?_
    cases hr : r.result with
    | error f =>
      rw [Reply.andThen_of_error hr]
      exact h
    | ok u =>
      rw [Reply.andThen_of_ok hr]
      exact hmint _ e.1 e.2 h

theorem Sound.create (symbol : Text) (opening : List (Account × Int)) :
    Sound (Ledger.create symbol opening).state := by
  unfold Ledger.create
  split
  · exact .empty symbol
  · exact mintAll_keeps (fun _ a n h => h.mint a n) (.empty symbol) _

theorem frozenOf_mintAll (r : Reply Ledger Unit) (entries : List (Account × Int)) (a : Account) :
    (create.mintAll r entries).state.frozenOf a = r.state.frozenOf a := by
  refine mintAll_keeps (P := fun l => l.frozenOf a = r.state.frozenOf a) (fun l b n h => ?_) rfl _
  rw [state_mint]
  split
  · exact h
  · exact h

theorem balanceOf_mintAll {r : Reply Ledger Unit} {entries : List (Account × Int)}
    (hn : (entries.map Prod.fst).Nodup) (hs : Sound r.state)
    (h : (create.mintAll r entries).result = .ok ()) (a : Account) :
    (create.mintAll r entries).state.balanceOf a =
      r.state.balanceOf a + (OrdMap.valueAt a entries).getD 0 := by
  induction entries generalizing r with
  | nil => simp [create.mintAll, OrdMap.valueAt]
  | cons e rest ih =>
    rw [List.map_cons, List.nodup_cons] at hn
    obtain ⟨hm, r', hr', hrest⟩ := mintAll_cons_ok h
    rw [hrest] at h ⊢
    rw [ih hn.2 (hr' ▸ hs.mint e.1 e.2) h, hr', state_mint, if_pos (hs.result_mint_iff.1 hm),
      balanceOf_credit, OrdMap.valueAt]
    by_cases ha : e.1 = a
    · subst ha
      rw [OrdMap.valueAt_eq_none_iff.2 hn.1]
      simp
    · simp [ha, Ne.symm ha]

/-- What a ledger opens with for an account. -/
def openingOf (opening : List (Account × Int)) (a : Account) : Int :=
  ((OrdMap.ofList opening).get? a).getD 0

theorem balanceOf_create {symbol : Text} {opening : List (Account × Int)}
    (h : (Ledger.create symbol opening).result = .ok ()) (a : Account) :
    (Ledger.create symbol opening).state.balanceOf a = openingOf opening a := by
  unfold Ledger.create at h ⊢
  split at h
  · cases h
  · next hs =>
    rw [if_neg hs]
    refine (balanceOf_mintAll (OrdMap.ofList opening).nodup (.empty symbol) h a).trans ?_
    exact Int.zero_add _

theorem frozenOf_create (symbol : Text) (opening : List (Account × Int)) (a : Account) :
    (Ledger.create symbol opening).state.frozenOf a = 0 := by
  unfold Ledger.create
  split
  · rfl
  · exact frozenOf_mintAll ..

end Ledger

end QuadraticVoting
