import QuadraticVoting.Reply

/-!
# The voter registry

The set of accounts that may act on proposals. Registering again changes nothing; unregistering
leaves an account's votes and proposals where they are.
-/

namespace QuadraticVoting

structure Registry where
  voters : List Account
  nodup : voters.Nodup

namespace Registry

instance : DecidableEq Registry := fun r s =>
  decidable_of_iff (r.voters = s.voters) ⟨fun h => by cases r; cases s; cases h; rfl, congrArg _⟩

def empty : Registry := ⟨[], List.nodup_nil⟩

instance : Inhabited Registry := ⟨empty⟩

def contains (r : Registry) (who : Account) : Bool := r.voters.contains who

def size (r : Registry) : Nat := r.voters.length

def add (r : Registry) (who : Account) : Registry :=
  if h : who ∈ r.voters then r
  else ⟨r.voters ++ [who], by
    rw [List.nodup_append]
    refine ⟨r.nodup, by simp, fun a ha b hb e => h ?_⟩
    rw [List.mem_singleton] at hb
    rw [← hb, ← e]; exact ha⟩

def remove (r : Registry) (who : Account) : Registry :=
  ⟨r.voters.filter (· ≠ who), r.nodup.sublist List.filter_sublist⟩

def require (r : Registry) (who : Account) : Except Fault Unit :=
  if r.contains who then .ok () else .error (.notRegistered who)

/-- The answer is whether the account is new. -/
def register [Host] (r : Registry) (who : Account) : Reply Registry Bool :=
  if !who.isGiven then .fail r .voterRequired
  else if r.contains who then ⟨.ok false, r, [.voterKnown who]⟩
  else ⟨.ok true, r.add who, [.voterRegistered who]⟩

def unregister [Host] (r : Registry) (who : Account) : Reply Registry Unit :=
  .check r (r.require who) fun _ => ⟨.ok (), r.remove who, [.voterUnregistered who]⟩

/-- The voters in the order of their texts. -/
def sorted (r : Registry) : List Account := r.voters.mergeSort fun a b => a.text ≤ b.text

def toValue (r : Registry) : Value :=
  .table [("voters", .list (r.sorted.map Account.toValue)), ("count", .int r.size)]

def describe (r : Registry) : String := s!"<VoterRegistry voters={r.size}>"

@[simp] theorem contains_iff {r : Registry} {who : Account} :
    r.contains who = true ↔ who ∈ r.voters := by simp [contains]

theorem mem_add {r : Registry} {a b : Account} :
    b ∈ (r.add a).voters ↔ b ∈ r.voters ∨ b = a := by
  unfold add
  split
  · next h => exact ⟨Or.inl, fun h' => h'.elim id fun e => e ▸ h⟩
  · simp

theorem mem_remove {r : Registry} {a b : Account} :
    b ∈ (r.remove a).voters ↔ b ∈ r.voters ∧ b ≠ a := by simp [remove]

theorem require_eq_ok_iff {r : Registry} {who : Account} :
    r.require who = .ok () ↔ who ∈ r.voters := by
  unfold require
  split
  · next h => simpa using h
  · next h => simpa using h

end Registry

end QuadraticVoting
