import QuadraticVoting.Number.Double

/-!
# The fewest digits that read back

A number in double precision is written with the fewest digits from which it can be read back. Of
two decimals with that many digits the nearer one is taken, and of two that are equally near the
even one.

For each number of digits only the two decimals next to the number have to be tried: if any
decimal with so many digits reads back, one of these does.
-/

namespace QuadraticVoting.Double

/-- As many digits as are ever needed. -/
def maxDigits : Nat := 17

/-- The decimal with the given number of digits that reads back as the number, if there is one. -/
def withDigits? (mantissa : Nat) (exponent : Int) (count : Nat) : Option (Nat × Int) :=
  let (digits, power) := exact mantissa exponent
  let extra := (Nat.toDigits 10 digits).length - count
  let unit := Nat.pow 10 extra
  let power := power + extra
  let below := digits / unit
  let rest := digits % unit
  let readsBack (n : Nat) : Bool := ofDecimal false n power = finite false mantissa exponent
  let nearer := Number.roundQuotient digits unit
  let farther := if nearer = below then below + 1 else below
  if rest = 0 then some (below, power)
  else if readsBack nearer then some (nearer, power)
  else if readsBack farther then some (farther, power)
  else none

/-- The digits without the zeros at their end, which go into the power; the fuel is a bound on
their number. -/
def stripZeros : (fuel digits : Nat) → (power : Int) → Nat × Int
  | 0, d, p => (d, p)
  | fuel + 1, d, p =>
    if d != 0 && d % 10 == 0 then stripZeros fuel (d / 10) (p + 1) else (d, p)

/-- The digits and the power of ten with which a number other than zero is written. -/
def shortest (mantissa : Nat) (exponent : Int) : Nat × Int :=
  let (digits, power) :=
    ((List.range maxDigits).findSome? fun n => withDigits? mantissa exponent (n + 1)).getD
      (exact mantissa exponent)
  stripZeros (Nat.toDigits 10 digits).length digits power

/-- Digits with a point: in its place when the first digit stands between the fourth place after
the point and the sixteenth before it, and else after the first digit, with a power of ten of at
least two digits behind. -/
def layout (digits : Nat) (power : Int) : String :=
  let ds := Nat.toDigits 10 digits
  let point : Int := ds.length + power
  if -4 < point && point ≤ 16 then
    if point ≤ 0 then
      String.ofList (['0', '.'] ++ List.replicate (-point).toNat '0' ++ ds)
    else if point < ds.length then
      String.ofList (ds.take point.toNat ++ ['.'] ++ ds.drop point.toNat)
    else
      String.ofList (ds ++ List.replicate (point.toNat - ds.length) '0' ++ ['.', '0'])
  else
    let leading := point - 1
    let front := match ds with
      | [] => []
      | [c] => [c]
      | c :: rest => c :: '.' :: rest
    let pad := if leading.natAbs < 10 then "0" else ""
    let sign := if leading < 0 then "-" else "+"
    String.ofList front ++ "e" ++ sign ++ pad ++ toString leading.natAbs

/-- The written form without the sign. -/
def literalAbs : Double → String
  | finite _ m e =>
    if m = 0 then "0.0"
    else
      let (digits, power) := shortest m e
      layout digits power
  | infinite _ => "inf"
  | nan => "nan"

def literal (x : Double) : String := if x.isNegative then "-" ++ x.literalAbs else x.literalAbs

end QuadraticVoting.Double
