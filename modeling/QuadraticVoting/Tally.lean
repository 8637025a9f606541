import QuadraticVoting.Fault

/-!
# Tallies and ballots

A vote of weight `w` costs `w²` and counts as much in the tally. A tally adds up to the largest
balance and no further; taking out more than is in it is a defect.
-/

namespace QuadraticVoting

/-- The largest weight whose square is still a balance. -/
def maxWeight : Int := 0xFFFFFFFFFFFFFFFF

theorem maxWeight_sq_le : maxWeight * maxWeight ≤ maxBalance := by decide

theorem maxBalance_lt_succ_maxWeight_sq : maxBalance < (maxWeight + 1) * (maxWeight + 1) := by
  decide

/-- The cost of a weight. -/
def cost (weight : Int) : Except Fault Int :=
  if weight > maxWeight then .error (.weightTooLarge weight) else .ok (weight * weight)

structure Tally where
  aye : Int
  total : Int
deriving DecidableEq, Inhabited

namespace Tally

def zero : Tally := ⟨0, 0⟩

def add (t : Tally) (aye : Bool) (power : Int) : Tally where
  aye := if aye then min (t.aye + power) maxBalance else t.aye
  total := min (t.total + power) maxBalance

def remove (t : Tally) (aye : Bool) (power : Int) : Except Fault Tally :=
  if power > t.total || (aye && power > t.aye) then
    .error (.tallyUnderflow aye power t.aye t.total)
  else
    .ok ⟨if aye then t.aye - power else t.aye, t.total - power⟩

/-- Whether strictly more than half of the cast power is aye. -/
def hasMajority (t : Tally) : Bool := t.aye * 2 > t.total

/-- The two powers, as messages show them. -/
def ratio (t : Tally) : String := s!"{t.aye}/{t.total}"

def ratioValue (t : Tally) : Value := .list [.int t.aye, .int t.total]

def toValue (t : Tally) : Value :=
  .table [("ayePower", .int t.aye), ("totalPower", .int t.total),
    ("hasMajority", .bool t.hasMajority)]

end Tally

/-- A live vote. -/
structure Ballot where
  proposal : Int
  voter : Account
  aye : Bool
  weight : Int
deriving DecidableEq, Inhabited

namespace Ballot

/-- What the vote keeps frozen. -/
def locked (b : Ballot) : Int := b.weight * b.weight

def direction (aye : Bool) : String := if aye then "AYE" else "NAY"

def toValue (b : Ballot) : Value :=
  .table [
    ("proposalId", .int b.proposal),
    ("voter", b.voter.toValue),
    ("vote", .text (direction b.aye)),
    ("weight", .int b.weight),
    ("lockedAmount", .int b.locked)]

theorem locked_nonneg (b : Ballot) : 0 ≤ b.locked := by
  rcases Int.le_total 0 b.weight with h | h
  · exact Int.mul_nonneg h h
  · have := Int.mul_nonneg (Int.neg_nonneg_of_nonpos h) (Int.neg_nonneg_of_nonpos h)
    rwa [Int.neg_mul_neg] at this

end Ballot

end QuadraticVoting
