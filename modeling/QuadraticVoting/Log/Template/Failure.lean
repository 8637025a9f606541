import QuadraticVoting.Fault.Kind
import QuadraticVoting.Value

/-!
# Failures of templates

Why a template cannot be filled from its arguments, with the kind of fault that it is for a caller
and the wording.
-/

namespace QuadraticVoting.Log.Template

inductive Failure
  /-- A key whose bracket is never closed. -/
  | unclosedKey
  /-- A conversion without its last letter. -/
  | incomplete
  /-- A conversion whose letter, at a place of the template, says nothing. -/
  | unknownLetter (letter : CodePoint) (place : Nat)
  | widthTooGreat
  | precisionTooGreat
  /-- A conversion with a key, and arguments that have none. -/
  | noTable
  | missingKey (key : Text)
  | tooFewArguments
  | tooManyArguments
  /-- A star for which the argument is no integer. -/
  | starNeedsInteger
  /-- An argument of the named type where the letter needs a number. -/
  | needsNumber (letter : Char) (given : String)
  | needsInteger (letter : Char) (given : String)
  | needsReal (given : String)
  | needsCharacter
  /-- An integer of what is no number. -/
  | notANumber
  /-- An integer of what is infinite. -/
  | infinite
  /-- An argument that is too large for a width. -/
  | widthOutOfRange
  /-- An argument that is too large for a precision. -/
  | precisionOutOfRange
  /-- A precision with which no integer is written. -/
  | precisionTooLarge
  /-- An integer that no number in double precision is near to. -/
  | realOutOfRange
  /-- A number that no character has. -/
  | noCodePoint
  /-- An argument that is too large to be written. -/
  | tooLarge (what : Value.Excess)
  /-- A text that is too long for the host. -/
  | tooLong
deriving DecidableEq

namespace Failure

def kind : Failure → FaultKind
  | unclosedKey | incomplete | unknownLetter .. | widthTooGreat | precisionTooGreat
  | notANumber => .badValue
  | noTable | tooFewArguments | tooManyArguments | starNeedsInteger | needsNumber ..
  | needsInteger .. | needsReal .. | needsCharacter => .badShape
  | missingKey .. => .missingKey
  | infinite | widthOutOfRange | precisionOutOfRange | precisionTooLarge | realOutOfRange
  | noCodePoint => .outOfRange
  | tooLarge .integer => .badValue
  | tooLarge .nesting => .tooDeep
  | tooLong => .outOfMemory

/-- A letter as messages show it, which is a question mark unless it is printable ASCII. -/
def shownLetter : CodePoint → Char
  | .char c => if 31 ≤ c.toNat && c.toNat < 127 then c else '?'
  | .surrogate _ => '?'

def message : Failure → String
  | unclosedKey => "incomplete format key"
  | incomplete => "incomplete format"
  | unknownLetter p place =>
    s!"unsupported format character '{shownLetter p}' ({Text.hexadecimal p.number}) " ++
      s!"at index {place}"
  | widthTooGreat => "width too big"
  | precisionTooGreat => "precision too big"
  | noTable => "format requires a mapping"
  | missingKey key => s!"key {Text.quote key} is missing"
  | tooFewArguments => "not enough arguments for format string"
  | tooManyArguments => "not all arguments converted during string formatting"
  | starNeedsInteger => "* wants int"
  | needsNumber c given => s!"%{c} format: a real number is required, not {given}"
  | needsInteger c given => s!"%{c} format: an integer is required, not {given}"
  | needsReal given => s!"must be real number, not {given}"
  | needsCharacter => "%c requires int or char"
  | notANumber => "cannot convert float NaN to integer"
  | infinite => "cannot convert float infinity to integer"
  | widthOutOfRange => "Python int too large to convert to C ssize_t"
  | precisionOutOfRange => "Python int too large to convert to C int"
  | precisionTooLarge => "precision too large"
  | realOutOfRange => "int too large to convert to float"
  | noCodePoint => "%c arg not in range(0x110000)"
  | tooLarge what => what.message
  | tooLong => ""

end Failure

end QuadraticVoting.Log.Template
