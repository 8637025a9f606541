import QuadraticVoting.Number.Rounding

/-!
# Numbers in double precision

A number with a point is kept as a whole number below 2⁵³ times a power of two, with the sign
apart, so that there are two zeros. `Double.ofDecimal` and `Double.ofInt?` take the nearest such
number; what lies beyond the greatest one is infinite. `Double.exact` is a finite number as a
decimal, without any rounding.
-/

namespace QuadraticVoting

inductive Double
  | finite (negative : Bool) (mantissa : Nat) (exponent : Int)
  | infinite (negative : Bool)
  /-- What is no number. -/
  | nan
deriving DecidableEq, Inhabited

namespace Double

open Number (roundQuotient)

def mantissaBits : Nat := 53

/-- The number above all mantissas. -/
def mantissaLimit : Nat := Nat.pow 2 mantissaBits

def leastExponent : Int := -1074

def greatestExponent : Int := 971

def zero (negative : Bool) : Double := finite negative 0 leastExponent

/-- The quotient of `num` by `den · 2 ^ exponent`, rounded. -/
def mantissaAt (num den : Nat) (exponent : Int) : Nat :=
  roundQuotient (num * Nat.pow 2 (-exponent).toNat) (den * Nat.pow 2 exponent.toNat)

/-- The exponent at which a positive quotient has a full mantissa, or the least one there is. -/
def exponentFor (num den : Nat) : Int :=
  let rough : Int := (num.log2 : Int) - den.log2 - (mantissaBits - 1)
  let full := den * Nat.pow 2 rough.toNat * Nat.pow 2 (mantissaBits - 1) ≤
    num * Nat.pow 2 (-rough).toNat
  max leastExponent (if full then rough else rough - 1)

/-- The number nearest to a quotient. -/
def ofQuotient (negative : Bool) (num den : Nat) : Double :=
  if num = 0 then zero negative
  else
    let e := exponentFor num den
    let m := mantissaAt num den e
    let (m, e) := if m = mantissaLimit then (m / 2, e + 1) else (m, e)
    if greatestExponent < e then infinite negative else finite negative m e

/-- Beyond this many places on either side of the point a number is infinite or zero. -/
def maxPlaces : Int := 400

/-- The number nearest to `±digits · 10 ^ power`. -/
def ofDecimal (negative : Bool) (digits : Nat) (power : Int) : Double :=
  let point := (Nat.toDigits 10 digits).length + power
  if digits = 0 || point < -maxPlaces then zero negative
  else if maxPlaces < point then infinite negative
  else ofQuotient negative (digits * Nat.pow 10 power.toNat) (Nat.pow 10 (-power).toNat)

/-- The number nearest to an integer, unless it is beyond the greatest one. -/
def ofInt? (n : Int) : Option Double :=
  match ofQuotient (n < 0) n.natAbs 1 with
  | infinite _ => none
  | x => some x

/-- The digits and the power of ten of `mantissa · 2 ^ exponent`. -/
def exact (mantissa : Nat) (exponent : Int) : Nat × Int :=
  if 0 ≤ exponent then (mantissa * Nat.pow 2 exponent.toNat, 0)
  else (mantissa * Nat.pow 5 (-exponent).toNat, exponent)

def isZero : Double → Bool
  | finite _ m _ => m == 0
  | infinite _ | nan => false

def isNegative : Double → Bool
  | finite negative .. | infinite negative => negative
  | nan => false

/-- The whole part and whether there is anything behind the point, without the sign. -/
def split (mantissa : Nat) (exponent : Int) : Nat × Bool :=
  if 0 ≤ exponent then (mantissa * Nat.pow 2 exponent.toNat, false)
  else
    let unit := Nat.pow 2 (-exponent).toNat
    (mantissa / unit, mantissa % unit != 0)

def signed (negative : Bool) (n : Nat) : Int := if negative then -(n : Int) else n

/-- The integer that is left without what stands behind the point. -/
def truncate? : Double → Option Int
  | finite negative m e => some (signed negative (split m e).1)
  | infinite _ | nan => none

/-- The greatest integer that is not above the number. -/
def floor? : Double → Option Int
  | finite negative m e =>
    let (n, rest) := split m e
    some (signed negative n - if negative && rest then 1 else 0)
  | infinite _ | nan => none

/-- The integer that the number is, if it is one. -/
def toInt? : Double → Option Int
  | finite negative m e =>
    let (n, rest) := split m e
    if rest then none else some (signed negative n)
  | infinite _ | nan => none

end Double

end QuadraticVoting
