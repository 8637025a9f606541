import QuadraticVoting.Log.Template.Failure
import QuadraticVoting.Text.Places
import QuadraticVoting.Text.Strand
import QuadraticVoting.Value

/-!
# Templates

Texts with conversions such as `%d` or `%(name)-8s`, which are filled from arguments in order or
from a table by key. `pieces` takes a template apart; `strands` puts the text together, from left
to right, and stops at the first piece that cannot be filled; `fill` writes it out.

A conversion is a percent sign, a key in brackets, flags, a width, a precision, a size letter that
does not count, and the letter that says how the value is written. All but the percent sign and
the last letter may be missing. Width and precision may be a star, which stands for the next
argument. Two percent signs stand for one.
-/

namespace QuadraticVoting.Log.Template

/-- The greatest width. -/
def maxWidth : Nat := 0x7FFFFFFFFFFFFFFF

/-- The greatest precision. -/
def maxPrecision : Nat := 0x7FFFFFFF

/-- The greatest precision of an integer. -/
def maxIntegerPrecision : Nat := maxPrecision - 3

/-- A width or a precision. -/
inductive Size
  | unset
  | number (n : Nat)
  /-- The next argument says. -/
  | star
  | tooGreat
deriving DecidableEq

inductive Key
  | unset
  | named (key : Text)
  /-- A key whose bracket is never closed. -/
  | unclosed
deriving DecidableEq

structure Conversion where
  key : Key
  flags : List Char
  width : Size
  precision : Size
  /-- The letter with its place in the template, unless the template ends before it. -/
  letter : Option (CodePoint × Nat)
deriving DecidableEq

inductive Piece
  | literal (p : CodePoint)
  /-- The escape `%%`. -/
  | percent
  | conversion (c : Conversion)
deriving DecidableEq

/-! ### Taking apart -/

/-- A key up to the bracket that closes it, and what follows; brackets inside it are balanced.
The depth counts the brackets that are open inside the key. -/
def keyEnd (depth : Nat) : List CodePoint → Option (List CodePoint × List CodePoint)
  | [] => none
  | p :: ps =>
    if p = ')' ∧ depth = 0 then some ([], ps)
    else
      let depth := if p = '(' then depth + 1 else if p = ')' then depth - 1 else depth
      (keyEnd depth ps).map fun (k, rest) => (p :: k, rest)

def takeKey : List CodePoint → Key × List CodePoint
  | .char '(' :: ps =>
    match keyEnd 0 ps with
    | some (k, rest) => (.named ⟨k⟩, rest)
    | none => (.unclosed, [])
  | ps => (.unset, ps)

def isFlag (c : Char) : Bool := "-+ #0".toList.contains c

def isNumeral (c : Char) : Bool := '0' ≤ c && c ≤ '9'

def numeral (ps : List CodePoint) : Nat := ps.foldl (fun n p => 10 * n + (p.number - 48)) 0

/-- A star or a number, which must not exceed the limit; where there is neither, what stands for
it. -/
def takeSize (limit : Nat) (missing : Size) : List CodePoint → Size × List CodePoint
  | .char '*' :: ps => (.star, ps)
  | ps =>
    let digits := ps.takeWhile (·.is isNumeral)
    let size :=
      if digits = [] then missing
      else if numeral digits ≤ limit then .number (numeral digits)
      else .tooGreat
    (size, ps.dropWhile (·.is isNumeral))

def takePrecision : List CodePoint → Size × List CodePoint
  | .char '.' :: ps => takeSize maxPrecision (.number 0) ps
  | ps => (.unset, ps)

def isSizeLetter (c : Char) : Bool := c == 'h' || c == 'l' || c == 'L'

def afterSizeLetter : List CodePoint → List CodePoint
  | [] => []
  | p :: ps => if p.is isSizeLetter then ps else p :: ps

/-- The letter at the start of a text, with its place in a template of the given length. -/
def takeLetter (length : Nat) (ps : List CodePoint) :
    Option (CodePoint × Nat) × List CodePoint :=
  match ps with
  | [] => (none, [])
  | p :: rest => (some (p, length - (rest.length + 1)), rest)

/-- The conversion that the text after a percent sign starts with, in a template of the given
length, and what follows it. -/
def takeConversion (length : Nat) (ps : List CodePoint) : Conversion × List CodePoint :=
  let (key, ps) := takeKey ps
  let flags := (ps.takeWhile (·.is isFlag)).filterMap CodePoint.char?
  let (width, ps) := takeSize maxWidth .unset (ps.dropWhile (·.is isFlag))
  let (precision, ps) := takePrecision ps
  let (letter, ps) := takeLetter length (afterSizeLetter ps)
  (⟨key, flags, width, precision, letter⟩, ps)

theorem length_keyEnd {ps k rest : List CodePoint} {d : Nat} (h : keyEnd d ps = some (k, rest)) :
    rest.length < ps.length := by
  induction ps generalizing d k with
  | nil => simp [keyEnd] at h
  | cons p ps ih =>
    rw [keyEnd] at h
    split at h
    · cases h; simp
    · obtain ⟨⟨k', rest'⟩, hk, e⟩ := Option.map_eq_some_iff.1 h
      cases e
      have := ih hk
      simp only [List.length_cons]; omega

theorem length_takeKey (ps : List CodePoint) : (takeKey ps).2.length ≤ ps.length := by
  unfold takeKey
  split
  · next ps =>
    split
    · next h => have := length_keyEnd h; simp only [List.length_cons]; omega
    · simp
  · exact Nat.le_refl _

theorem length_dropWhile (cls : CodePoint → Bool) (ps : List CodePoint) :
    (ps.dropWhile cls).length ≤ ps.length := (List.dropWhile_sublist cls).length_le

theorem length_takeSize (limit : Nat) (missing : Size) (ps : List CodePoint) :
    (takeSize limit missing ps).2.length ≤ ps.length := by
  unfold takeSize
  split
  · simp
  · exact length_dropWhile _ _

theorem length_takePrecision (ps : List CodePoint) : (takePrecision ps).2.length ≤ ps.length := by
  unfold takePrecision
  split
  · next ps =>
    have := length_takeSize maxPrecision (.number 0) ps
    simp only [List.length_cons]; omega
  · exact Nat.le_refl _

theorem length_afterSizeLetter (ps : List CodePoint) :
    (afterSizeLetter ps).length ≤ ps.length := by
  unfold afterSizeLetter
  split
  · simp
  · split <;> simp

theorem length_takeLetter (length : Nat) (ps : List CodePoint) :
    (takeLetter length ps).2.length ≤ ps.length := by
  unfold takeLetter
  split <;> simp

theorem length_takeConversion (length : Nat) (ps : List CodePoint) :
    (takeConversion length ps).2.length ≤ ps.length :=
  Nat.le_trans (length_takeLetter _ _) <| Nat.le_trans (length_afterSizeLetter _) <|
    Nat.le_trans (length_takePrecision _) <| Nat.le_trans (length_takeSize _ _ _) <|
      Nat.le_trans (length_dropWhile _ _) (length_takeKey ps)

/-- The rest of a template of the given length as the pieces that it is read as. -/
def piecesFrom (length : Nat) (ps : List CodePoint) : List Piece :=
  match ps with
  | [] => []
  | .char '%' :: .char '%' :: ps => .percent :: piecesFrom length ps
  | p :: ps =>
    if p = '%' then
      .conversion (takeConversion length ps).1 :: piecesFrom length (takeConversion length ps).2
    else .literal p :: piecesFrom length ps
termination_by ps.length
decreasing_by
  · simp only [List.length_cons]; omega
  · have := length_takeConversion length ps; simp only [List.length_cons]; omega
  · simp

/-- A template as the pieces that it is read as. -/
def pieces (t : Text) : List Piece := piecesFrom t.length t.toList

/-! ### Putting together -/

/-- What a conversion writes: an untyped value, or something of a named type that has a written
form only. -/
inductive Operand
  | value (v : Value)
  | shown (typeName : String) (s : String)
deriving DecidableEq, Inhabited

namespace Operand

def plain : Operand → Text
  | value v => v.plain
  | shown _ s => s

def literal : Operand → String
  | value v => v.literal
  | shown _ s => s

/-- The written form in which nothing but ASCII occurs. -/
def ascii : Operand → String
  | value v => Text.escapeNonAscii v.literal
  | shown _ s => Text.escapeNonAscii s

def typeName : Operand → String
  | value v => v.typeName
  | shown t _ => t

/-- What is too large in an operand, if it is to be written. -/
def excess? [Host] : Operand → Option Value.Excess
  | value v => v.excess?
  | shown .. => none

/-- The whole number that an operand stands for; truth values are 0 and 1. -/
def integer? : Operand → Option Int
  | value (.int n) => some n
  | value (.bool b) => some (if b then 1 else 0)
  | _ => none

end Operand

/-- What a template is filled from. -/
inductive Source
  /-- The arguments that are left. -/
  | ordered (rest : List Operand)
  /-- A table, and the operand that a conversion without a key takes, if one is left. -/
  | keyed (table : List (Text × Operand)) (next : Option Operand)

namespace Source

/-- The whole table is what the first conversion without a key takes. -/
def ofTable (table : List (Text × Operand)) : Source :=
  let entries := table.map fun (k, o) => Text.quote k ++ ": " ++ o.literal
  .keyed table <| some <| .shown "dict" <| "\x7b" ++ Value.joined ", " entries ++ "\x7d"

/-- A single table that is not empty is used by key, and all other arguments in order. -/
def ofArguments : List Value → Source
  | [.table (e :: l)] =>
    .keyed ((e :: l).map fun (k, v) => (k, .value v)) (some (.value (.table (e :: l))))
  | args => .ordered (args.map .value)

/-- Take the next operand. -/
def next : Source → Except Failure (Operand × Source)
  | ordered (o :: rest) => .ok (o, ordered rest)
  | keyed table (some o) => .ok (o, keyed table none)
  | ordered [] | keyed _ none => .error .tooFewArguments

/-- Turn to the operand under a key. -/
def select (src : Source) (key : Key) : Except Failure Source :=
  match key, src with
  | .unset, _ => .ok src
  | .unclosed, ordered _ | .named _, ordered _ => .error .noTable
  | .unclosed, keyed .. => .error .unclosedKey
  | .named key, keyed table _ =>
    match table.find? (·.1 == key) with
    | some (_, o) => .ok (keyed table (some o))
    | none => .error (.missingKey key)

/-- Whether nothing is left over. -/
def isSpent : Source → Bool
  | ordered rest => rest.isEmpty
  | keyed .. => true

end Source

/-- How a value is laid out. -/
structure Layout where
  left : Bool
  width : Nat
  /-- Whether zeros stand for blanks. -/
  zeros : Bool

/-- A body with what stands in front of it, filled up to the width. Blanks go before the front or
after all, and zeros between the front and the body. -/
def Layout.apply (l : Layout) (front : Text) (body : List Strand) : List Strand :=
  let missing := l.width - (front.length + Strand.lengthOf body)
  if l.left then .plain front :: body ++ [.blanks missing]
  else if l.zeros then .plain front :: .zeros missing :: body
  else .blanks missing :: .plain front :: body

/-- The places of a number of which the precision is not given. -/
def standardPlaces : Nat := 6

def Conversion.has (c : Conversion) (flag : Char) : Bool := c.flags.contains flag

/-- The sign in front of a number. -/
def Conversion.sign (c : Conversion) (negative : Bool) : String :=
  if negative then "-" else if c.has '+' then "+" else if c.has ' ' then " " else ""

/-- A width, or a precision, that stands for itself or is the next operand, within the limit. -/
def Size.resolve (s : Size) (limit : Nat) (tooGreat outOfRange : Failure) (src : Source) :
    Except Failure (Option Int × Source) :=
  match s with
  | .unset => .ok (none, src)
  | .number n => .ok (some n, src)
  | .tooGreat => .error tooGreat
  | .star => do
    let (o, src) ← src.next
    match o.integer? with
    | none => .error .starNeedsInteger
    | some n =>
      if n < -(limit : Int) - 1 || limit < n then .error outOfRange else .ok (some n, src)

def upperAscii (cs : List Char) : List Char := cs.map Char.toUpper

/-- The digits of a whole number as a letter asks for them, and the mark of their base. -/
def digitsFor (letter : Char) (n : Nat) : String × List Char :=
  if letter = 'o' then ("0o", Nat.toDigits 8 n)
  else if letter = 'x' then ("0x", Nat.toDigits 16 n)
  else if letter = 'X' then ("0X", upperAscii (Nat.toDigits 16 n))
  else ("", Nat.toDigits 10 n)

/-- A whole number, with at least as many digits as the precision says. -/
def integerText (c : Conversion) (letter : Char) (l : Layout) (precision : Option Nat) (n : Int) :
    List Strand :=
  let (mark, digits) := digitsFor letter n.natAbs
  l.apply (c.sign (n < 0) ++ if c.has '#' then mark else "")
    [.zeros (precision.getD 0 - digits.length), .plain (.ofChars digits)]

/-- The whole number that is left of a number without what follows the point. -/
def truncated (letter : Char) (o : Operand) : Except Failure Int :=
  match o with
  | .value (.real .nan) => .error .notANumber
  | .value (.real x) =>
    match x.truncate? with
    | some n => .ok n
    | none => .error .infinite
  | o =>
    match o.integer? with
    | some n => .ok n
    | none => .error (.needsNumber letter o.typeName)

def integer (letter : Char) (o : Operand) : Except Failure Int :=
  match o.integer? with
  | some n => .ok n
  | none => .error (.needsInteger letter o.typeName)

/-- The number in double precision that an operand is, or is nearest to. -/
def real (o : Operand) : Except Failure Double :=
  match o with
  | .value (.real x) => .ok x
  | o =>
    match o.integer? with
    | none => .error (.needsReal o.typeName)
    | some n =>
      match Double.ofInt? n with
      | none => .error .realOutOfRange
      | some x => .ok x

/-- The precision of a number as far as it shows: what is not finite has no places, and where
trailing zeros are left out a number has no more places than digits. -/
def placesOf (letter : Char) (places : Nat) (point : Bool) : Double → Nat
  | .finite _ m e =>
    if letter = 'g' && !point then min places (Nat.toDigits 10 (Double.exact m e).1).length
    else places
  | .infinite _ | .nan => 0

/-- A number as the letters `e`, `f` and `g` ask for it, without its sign. -/
def realDigits (letter : Char) (places : Nat) (point : Bool) : Double → List Char
  | .finite _ m e =>
    let (digits, power) := Double.exact m e
    if letter = 'f' then Text.fixed digits power places point
    else if letter = 'e' then Text.scientific digits power places point
    else Text.general digits power places point
  | x => x.literalAbs.toList

/-- The most places after which a number has digits other than zero. -/
def maxRealPlaces : Nat := 1100

def realText (c : Conversion) (letter : Char) (l : Layout) (places : Nat) (x : Double) :
    List Strand :=
  let text := realDigits letter.toLower (min places maxRealPlaces) (c.has '#') x
  let shown (cs : List Char) : Strand :=
    .plain (.ofChars (if letter.isUpper then upperAscii cs else cs))
  l.apply (c.sign x.isNegative) [
    shown (text.takeWhile (· != 'e')), .zeros (places - maxRealPlaces),
    shown (text.dropWhile (· != 'e'))]

/-- The code point that an operand is, or whose number it is. -/
def codePoint (o : Operand) : Except Failure CodePoint :=
  match o with
  | .value (.text t) =>
    match t.toList with
    | [p] => .ok p
    | _ => .error .needsCharacter
  | o =>
    match o.integer? with
    | none => .error .needsCharacter
    | some n => if n < 0 || 0x110000 ≤ n then .error .noCodePoint else .ok (.ofNat n.toNat)

/-- A text, cut off where the precision says. -/
def cut (precision : Option Nat) (t : Text) : Text :=
  match precision with
  | none => t
  | some n => ⟨t.toList.take n⟩

/-! What follows is up to the host, which may have no room for a value or a text. -/

section AnyHost

variable [Host]

/-- Strands, unless they are too long. -/
def fitting (strands : List Strand) : Except Failure (List Strand) :=
  if Host.memory < Strand.lengthOf strands then .error .tooLong else .ok strands

/-- An operand in a written form, unless it is too large. -/
def written (form : Operand → Text) (o : Operand) : Except Failure Text :=
  match o.excess? with
  | some what => .error (.tooLarge what)
  | none => .ok (form o)

/-- Only a number in tens can be too large. -/
def writtenInteger (c : Conversion) (letter : Char) (l : Layout) (precision : Option Nat)
    (n : Int) : Except Failure (List Strand) :=
  if maxIntegerPrecision < precision.getD 0 then .error .precisionTooLarge
  else if "diu".toList.contains letter ∧ ¬ Value.isWritable n then .error (.tooLarge .integer)
  else fitting (integerText c letter l precision n)

/-- How wide a width asks for; the least one that can be given asks for nothing. -/
def magnitude (width : Int) : Nat := if width.natAbs ≤ maxWidth then width.natAbs else 0

/-- The text of a conversion with a letter that has a meaning. -/
def convert? (c : Conversion) (letter : Char) (width : Option Int) (precision : Option Nat)
    (o : Operand) : Option (Except Failure (List Strand)) :=
  let left := c.has '-' || width.any (· < 0)
  let width := magnitude (width.getD 0)
  let plain : Layout := ⟨left, width, false⟩
  let numeric : Layout := ⟨left, width, c.has '0'⟩
  let text (form : Operand → Text) := do
    let t ← written form o
    fitting (plain.apply "" [.plain (cut precision t)])
  let whole := writtenInteger c letter numeric precision
  if letter = 's' then some (text Operand.plain)
  else if letter = 'r' then some (text (Operand.literal ·))
  else if letter = 'a' then some (text (Operand.ascii ·))
  else if letter = 'c' then some do
    let p ← codePoint o
    fitting (plain.apply "" [.plain ⟨[p]⟩])
  else if "diu".toList.contains letter then some (truncated letter o >>= whole)
  else if "oxX".toList.contains letter then some (integer letter o >>= whole)
  else if "eEfFgG".toList.contains letter then some do
    let x ← real o
    let places := placesOf letter.toLower (precision.getD standardPlaces) (c.has '#') x
    fitting (realText c letter numeric places x)
  else none

/-- The text of a conversion, and what is left to fill the rest from. -/
def fillConversion (c : Conversion) (src : Source) :
    Except Failure (List Strand × Source) := do
  let src ← src.select c.key
  let (width, src) ← c.width.resolve maxWidth .widthTooGreat .widthOutOfRange src
  let (precision, src) ←
    c.precision.resolve maxPrecision .precisionTooGreat .precisionOutOfRange src
  match c.letter with
  | none => throw .incomplete
  | some (letter, place) =>
    let (o, src) ← src.next
    match letter.char?.bind fun l => convert? c l width (precision.map Int.toNat) o with
    | none => throw (.unknownLetter letter place)
    | some strands => return (← strands, src)

def fillPieces : List Piece → Source → Except Failure (List Strand)
  | [], src => if src.isSpent then .ok [] else .error .tooManyArguments
  | .literal p :: l, src => (fillPieces l src).map (.plain ⟨[p]⟩ :: ·)
  | .percent :: l, src => (fillPieces l src).map (.plain "%" :: ·)
  | .conversion c :: l, src => do
    let (strands, src) ← fillConversion c src
    return strands ++ (← fillPieces l src)

/-- The filled template, not yet written out. -/
def strands (template : Text) (src : Source) : Except Failure (List Strand) :=
  fillPieces (pieces template) src

/-- The filled template. -/
def fill (template : Text) (src : Source) : Except Failure Text :=
  (strands template src).map Strand.textOf

end AnyHost

end QuadraticVoting.Log.Template
