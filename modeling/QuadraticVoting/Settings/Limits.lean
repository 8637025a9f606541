import QuadraticVoting.Fault

/-!
# Governance limits

The bounds that every proposal keeps. Limits are given as untyped values, in a document or in the
environment, and `RawLimits.validate` turns them into `Limits`, whose type says what a valid set
of limits is.
-/

namespace QuadraticVoting

structure Limits where
  payload : Nat
  accounts : Nat
  maximum : Nat
  minimum : Nat
  delay : Nat
  one_le_minimum : 1 ≤ minimum
  minimum_le_maximum : minimum ≤ maximum
deriving DecidableEq

namespace Limits

/-- The limits in force when none are given. -/
def standard : Limits := ⟨150, 1000, 1000, 100, 100, by decide, by decide⟩

instance : Inhabited Limits := ⟨standard⟩

end Limits

/-- Limits before they are checked; each may be any value. -/
structure RawLimits where
  payload : Value
  accounts : Value
  maximum : Value
  minimum : Value
  delay : Value
deriving DecidableEq

namespace RawLimits

def ofLimits (l : Limits) : RawLimits :=
  ⟨.int l.payload, .int l.accounts, .int l.maximum, .int l.minimum, .int l.delay⟩

def standard : RawLimits := ofLimits .standard

instance : Inhabited RawLimits := ⟨standard⟩

/-- The limits of a table; one that is not there is the standard one. -/
def ofTable (t : List (Text × Value)) : RawLimits where
  payload := (Value.field? "offchain_data_limit" t).getD standard.payload
  accounts := (Value.field? "account_size_limit" t).getD standard.accounts
  maximum := (Value.field? "maximum_duration" t).getD standard.maximum
  minimum := (Value.field? "minimum_duration" t).getD standard.minimum
  delay := (Value.field? "delay_limit" t).getD standard.delay

def toTable (l : RawLimits) : List (Text × Value) := [
  ("offchain_data_limit", l.payload),
  ("account_size_limit", l.accounts),
  ("maximum_duration", l.maximum),
  ("minimum_duration", l.minimum),
  ("delay_limit", l.delay)]

def natural (name : String) (v : Value) : Except Fault Nat :=
  match v with
  | .int n => if n < 0 then .error (.limitNotNatural name) else .ok n.toNat
  | _ => .error (.limitNotNatural name)

def validate [Host] (l : RawLimits) : Except Fault Limits := do
  let payload ← natural "offchain_data_limit" l.payload
  let accounts ← natural "account_size_limit" l.accounts
  let maximum ← natural "maximum_duration" l.maximum
  let minimum ← natural "minimum_duration" l.minimum
  let delay ← natural "delay_limit" l.delay
  if h₁ : 1 ≤ minimum then
    if h₂ : minimum ≤ maximum then
      .ok ⟨payload, accounts, maximum, minimum, delay, h₁, h₂⟩
    else .error (Fault.told (.minimumAboveMaximum minimum maximum))
  else .error .minimumBelowOne

theorem natural_eq_ok_iff {name : String} {v : Value} {n : Nat} :
    natural name v = .ok n ↔ v = .int n := by
  unfold natural
  split
  · next k =>
    split
    · simp only [reduceCtorEq, Value.int.injEq, false_iff]; omega
    · simp only [Except.ok.injEq, Value.int.injEq]; omega
  · next h => exact ⟨nofun, fun e => absurd e (h _)⟩

theorem validate_ofLimits [Host] (l : Limits) : (ofLimits l).validate = .ok l := by
  have key : ∀ (s : String) (n : Nat), natural s (.int n) = .ok n :=
    fun _ _ => natural_eq_ok_iff.2 rfl
  simp [ofLimits, validate, key, bind, Except.bind, l.one_le_minimum, l.minimum_le_maximum]

/-- Reading back what was written gives the same limits. -/
theorem ofTable_toTable (l : RawLimits) : ofTable l.toTable = l := by
  simp [ofTable, toTable, Value.field?]

end RawLimits

end QuadraticVoting
