import QuadraticVoting.Fault

/-!
# Account lists

A list of accounts without repetition, in the order in which each first came up. It is made from
any sequence of accounts, under a limit on how many different ones there may be.
-/

namespace QuadraticVoting

structure AccountList where
  members : List Account
  nodup : members.Nodup
deriving DecidableEq

/-- An account list as a caller gives it; a single text is never taken for one. -/
inductive ListArg
  | none
  | text (t : Text)
  | accounts (l : List Account)
deriving DecidableEq

namespace AccountList

def empty : AccountList := ⟨[], List.nodup_nil⟩

instance : Inhabited AccountList := ⟨empty⟩

/-- Each account once, where it first stands. -/
def firstOccurrences : List Account → List Account
  | [] => []
  | a :: l => a :: (firstOccurrences l).filter (· ≠ a)

theorem mem_firstOccurrences {a : Account} {l : List Account} :
    a ∈ firstOccurrences l ↔ a ∈ l := by
  induction l with
  | nil => rfl
  | cons b l ih =>
    simp only [firstOccurrences, List.mem_cons, List.mem_filter, ih, decide_eq_true_eq]
    by_cases h : a = b <;> simp [h]

theorem nodup_firstOccurrences (l : List Account) : (firstOccurrences l).Nodup := by
  induction l with
  | nil => exact List.nodup_nil
  | cons a l ih =>
    rw [firstOccurrences, List.nodup_cons]
    exact ⟨by simp, ih.sublist List.filter_sublist⟩

theorem firstOccurrences_of_nodup {l : List Account} (h : l.Nodup) : firstOccurrences l = l := by
  induction l with
  | nil => rfl
  | cons a l ih =>
    rw [List.nodup_cons] at h
    rw [firstOccurrences, ih h.2, List.filter_eq_self.2]
    intro b hb
    have hne : b ≠ a := fun e => h.1 (by rw [← e]; exact hb)
    simpa using hne

def ofList (l : List Account) : AccountList := ⟨firstOccurrences l, nodup_firstOccurrences l⟩

def contains (l : AccountList) (a : Account) : Bool := l.members.contains a

def size (l : AccountList) : Nat := l.members.length

/-- The list of the given accounts, if at most `limit` of them differ. -/
def bounded (limit : Int) : ListArg → Except Fault AccountList
  | .none => check (ofList [])
  | .text _ => .error .listIsText
  | .accounts l => check (ofList l)
where
  check (l : AccountList) : Except Fault AccountList :=
    if (l.size : Int) > limit then .error (.listTooLarge l.size limit) else .ok l

def toValue (l : AccountList) : Value := .list (l.members.map Account.toValue)

/-- The form shown for a list held under a limit. -/
def describe (l : AccountList) (limit : Int) : Except Fault Text :=
  Fault.writing [limit] s!"BoundedAccountList({l.toValue.literal}, capacity={limit})"

theorem contains_ofList {l : List Account} {a : Account} :
    (ofList l).contains a = true ↔ a ∈ l := by
  simp [contains, ofList, mem_firstOccurrences]

theorem size_le_of_bounded {limit : Int} {arg : ListArg} {l : AccountList}
    (h : bounded limit arg = .ok l) : (l.size : Int) ≤ limit := by
  have key : ∀ m : AccountList, bounded.check limit m = .ok l → (l.size : Int) ≤ limit := by
    intro m hm
    unfold bounded.check at hm
    split at hm
    · cases hm
    · cases hm; omega
  cases arg with
  | none => exact key _ h
  | text s => cases h
  | accounts m => exact key _ h

end AccountList

end QuadraticVoting
