import QuadraticVoting.Text.Basic

/-!
# Verdicts

What comes of a format that was asked for: the format that is used, and whether a warning was
given because it is not the one that was asked for.
-/

namespace QuadraticVoting.Log

structure Verdict where
  format : Text
  warned : Bool
deriving DecidableEq, Inhabited

namespace Verdict

def accept (format : Text) : Verdict := ⟨format, false⟩

/-- The verdict on a format that failed its test. -/
def reject (standard : Text) : Verdict := ⟨standard, true⟩

/-- The verdict on a format that may be empty, in which case the standard one is used, or fail a
test, in which case the standard one is used with a warning. -/
def ofTest (standard : Text) (test : Text → Bool) (format : Text) : Verdict :=
  if format = "" then accept standard
  else if test format then accept format
  else reject standard

theorem ofTest_of_ne_empty {standard format : Text} {test : Text → Bool} (h : format ≠ "") :
    ofTest standard test format = if test format then ⟨format, false⟩ else ⟨standard, true⟩ := by
  simp only [ofTest, if_neg h, accept, reject]

end Verdict

end QuadraticVoting.Log
