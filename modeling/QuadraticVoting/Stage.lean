/-!
# Stages of a proposal

A proposal is pending, then active, then ended, and in the end closed. Only the first and the last
are written down by the library; the two between follow from the block height.
-/

namespace QuadraticVoting

inductive Stage
  | pending
  | active
  | ended
  | closed
deriving DecidableEq, Inhabited

namespace Stage

def name : Stage → String
  | pending => "PENDING"
  | active => "ACTIVE"
  | ended => "ENDED"
  | closed => "CLOSED"

def all : List Stage := [pending, active, ended, closed]

def ofName? (s : String) : Option Stage := all.find? (·.name == s)

/-- The place of a stage in the course of a proposal. -/
def rank : Stage → Nat
  | pending => 0
  | active => 1
  | ended => 2
  | closed => 3

instance : LE Stage := ⟨fun a b => a.rank ≤ b.rank⟩

instance (a b : Stage) : Decidable (a ≤ b) := inferInstanceAs (Decidable (a.rank ≤ b.rank))

theorem ofName?_name (s : Stage) : ofName? s.name = some s := by cases s <;> decide

end Stage

end QuadraticVoting
