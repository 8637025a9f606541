/-!
# Rounding

A quotient rounded to the nearest whole number, a half to the even neighbour: the rule by which
numbers are cut to a number of places, and by which they are kept in double precision.
-/

namespace QuadraticVoting.Number

/-- The quotient rounded to the nearest number, a half to the even one. -/
def roundQuotient (num den : Nat) : Nat :=
  let q := num / den
  let r := num % den
  if 2 * r < den then q else if den < 2 * r then q + 1 else q + q % 2

end QuadraticVoting.Number
