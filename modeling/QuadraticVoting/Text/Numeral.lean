import QuadraticVoting.Text.Basic
import QuadraticVoting.Text.Blank
import QuadraticVoting.Text.Digit

/-!
# Integer numerals

The integer that a text denotes: blanks around it do not count, a sign may stand in front, the
digits may be of any script, and single underscores may stand between them. A numeral may have
4300 digits and no more.
-/

namespace QuadraticVoting.Text

/-- The most digits that a numeral may have. -/
def maxDigits : Nat := 4300

/-- The blanks that may surround a numeral: all but the four separators from U+001C on. -/
def isNumeralBlank (c : Char) : Bool := isBlank c && !(28 ≤ c.toNat && c.toNat ≤ 31)

/-- The values of the digits after the first, each of which may follow an underscore. -/
def digitsAfter : List Char → Option (List Nat)
  | [] => some []
  | c :: cs =>
    if c = '_' then
      match cs with
      | [] => none
      | d :: rest => do
        let n ← digitValue? d
        let l ← digitsAfter rest
        return n :: l
    else do
      let n ← digitValue? c
      let l ← digitsAfter cs
      return n :: l

/-- The values of the digits of an unsigned numeral. -/
def digits? : List Char → Option (List Nat)
  | [] => none
  | c :: cs => do
    let n ← digitValue? c
    let l ← digitsAfter cs
    return n :: l

/-- The number with the given decimal digits. -/
def ofDigits (l : List Nat) : Nat := l.foldl (fun n d => 10 * n + d) 0

def unsigned? (cs : List Char) : Option Nat := do
  let l ← digits? cs
  if l.length ≤ maxDigits then some (ofDigits l) else none

/-- The text without the blanks that may surround a numeral. -/
def trimNumeral (cs : List Char) : List Char :=
  ((cs.dropWhile isNumeralBlank).reverse.dropWhile isNumeralBlank).reverse

def signed? (cs : List Char) : Option Int :=
  match trimNumeral cs with
  | '-' :: cs => (unsigned? cs).map fun n => -(n : Int)
  | '+' :: cs => (unsigned? cs).map fun n => (n : Int)
  | cs => (unsigned? cs).map fun n => (n : Int)

def integer? (t : Text) : Option Int := t.chars?.bind signed?

end QuadraticVoting.Text
