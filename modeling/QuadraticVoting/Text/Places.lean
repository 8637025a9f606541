import QuadraticVoting.Number.Rounding

/-!
# Numbers with places

A number given by its digits and a power of ten, written with a given count of places. What does
not fit is rounded to the nearest, and a half goes to the even neighbour.

`fixed` writes all places after the point, `scientific` writes one digit before the point and a
power of ten, and `general` chooses between the two and counts significant digits.
-/

namespace QuadraticVoting.Text

open Number (roundQuotient)

/-- The digits of `digits · 10 ^ power`, rounded to a whole number. -/
def scaled (digits : Nat) (power : Int) : List Char :=
  if digits = 0 then ['0']
  else if 0 ≤ power then Nat.toDigits 10 digits ++ List.replicate power.toNat '0'
  else Nat.toDigits 10 (roundQuotient digits (Nat.pow 10 (-power).toNat))

/-- The power of ten of the first digit; that of zero is 0. -/
def leadingPower (digits : Nat) (exponent : Int) : Int :=
  if digits = 0 then 0 else exponent + (Nat.toDigits 10 digits).length - 1

/-- The digits of a number, with a point before the last `places` of them. A point that nothing
follows is left out unless it is asked for. -/
def placed (ds : List Char) (places : Nat) (point : Bool) : List Char :=
  let ds := List.replicate (places + 1 - ds.length) '0' ++ ds
  let whole := ds.take (ds.length - places)
  if places = 0 then (if point then whole ++ ['.'] else whole)
  else whole ++ '.' :: ds.drop (ds.length - places)

def fixed (digits : Nat) (exponent : Int) (places : Nat) (point : Bool) : List Char :=
  placed (scaled digits (exponent + places)) places point

/-- The digits of the rounded number, one more than `places`, and the power of the first. A number
that is rounded up to the next power of ten has one digit too many, which is a zero. -/
def rounded (digits : Nat) (exponent : Int) (places : Nat) : List Char × Int :=
  let power := leadingPower digits exponent
  let ds := scaled digits (exponent - power + places)
  if ds.length = places + 2 then (ds.dropLast, power + 1) else (ds, power)

/-- A power of ten, with a sign and at least two digits. -/
def powerText (power : Int) : List Char :=
  let ds := Nat.toDigits 10 power.natAbs
  ['e', if power < 0 then '-' else '+'] ++ List.replicate (2 - ds.length) '0' ++ ds

def scientific (digits : Nat) (exponent : Int) (places : Nat) (point : Bool) : List Char :=
  let (ds, power) := rounded digits exponent places
  placed ds places point ++ powerText power

/-- The text without the zeros after its point that say nothing, and without a point at its end. -/
def trimZeros (cs : List Char) : List Char :=
  if cs.contains '.' then
    let kept := (cs.reverse.dropWhile (· == '0')).reverse
    if kept.getLast? = some '.' then kept.dropLast else kept
  else cs

/-- The number with the given count of significant digits, at least one. Trailing zeros are kept
only when `point` asks for them. -/
def general (digits : Nat) (exponent : Int) (significant : Nat) (point : Bool) : List Char :=
  let significant := max significant 1
  let (ds, power) := rounded digits exponent (significant - 1)
  let trim := if point then id else trimZeros
  if -4 ≤ power && power < significant then
    trim (fixed digits exponent (significant - 1 - power).toNat point)
  else trim (placed ds (significant - 1) point) ++ powerText power

end QuadraticVoting.Text
