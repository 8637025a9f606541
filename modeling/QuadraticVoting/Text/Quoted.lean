import QuadraticVoting.Text.Basic
import QuadraticVoting.Text.Printable

/-!
# Quoted texts

Messages show a given text between quotes, with what cannot be printed escaped, surrogates among
it. The quote is a single one, or a double one for a text that holds single quotes and no double
ones. Byte strings are shown likewise, with every byte outside printable ASCII escaped.
-/

namespace QuadraticVoting.Text

/-- The last `width` hexadecimal digits of a number, in lower case. -/
def hexDigits : (width n : Nat) → List Char
  | 0, _ => []
  | w + 1, n => hexDigits w (n / 16) ++ [Nat.digitChar (n % 16)]

theorem length_hexDigits (w n : Nat) : (hexDigits w n).length = w := by
  induction w generalizing n with
  | zero => rfl
  | succ w ih => simp [hexDigits, ih]

def hexadecimal (n : Nat) : String := "0x" ++ String.ofList (Nat.toDigits 16 n)

def quoteFor (cs : List Char) : Char :=
  if cs.contains '\'' && !cs.contains '"' then '"' else '\''

def escapeControl (n : Nat) : List Char :=
  if n == 9 then ['\\', 't']
  else if n == 10 then ['\\', 'n']
  else if n == 13 then ['\\', 'r']
  else ['\\', 'x'] ++ hexDigits 2 n

/-- A code point by its number, in as few of two, four and eight digits as it takes. -/
def escapeNumber (n : Nat) : List Char :=
  if n ≤ 0xFF then ['\\', 'x'] ++ hexDigits 2 n
  else if n ≤ 0xFFFF then ['\\', 'u'] ++ hexDigits 4 n
  else ['\\', 'U'] ++ hexDigits 8 n

def escapeChar (quote c : Char) : List Char :=
  let n := c.toNat
  if c == quote || c == '\\' then ['\\', c]
  else if n < 0x20 || n == 0x7F then escapeControl n
  else if isPrintable c then [c]
  else escapeNumber n

def escapePoint (quote : Char) : CodePoint → List Char
  | .char c => escapeChar quote c
  | .surrogate i => escapeNumber (CodePoint.number (.surrogate i))

def quote (t : Text) : String :=
  let q := quoteFor t.masked
  String.ofList (q :: t.toList.flatMap (escapePoint q) ++ [q])

/-- The text with every character outside ASCII escaped. -/
def escapeNonAscii (s : String) : String :=
  String.ofList (s.toList.flatMap fun c => if c.toNat < 0x80 then [c] else escapeNumber c.toNat)

def escapeByte (quote : Char) (b : UInt8) : List Char :=
  let n := b.toNat
  let c := Char.ofNat n
  if c == quote || c == '\\' then ['\\', c]
  else if n < 0x20 || 0x7F ≤ n then escapeControl n
  else [c]

/-- A byte string with its marker, such as `b'ab\x00'`. -/
def quoteBytes (bs : List UInt8) : String :=
  let q := quoteFor (bs.map fun b => Char.ofNat b.toNat)
  String.ofList ('b' :: q :: bs.flatMap (escapeByte q) ++ [q])

/-- Two lower-case hexadecimal digits for each byte. -/
def hexText (bs : List UInt8) : String :=
  String.ofList (bs.flatMap fun b => hexDigits 2 b.toNat)

end QuadraticVoting.Text
