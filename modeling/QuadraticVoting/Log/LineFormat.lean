import QuadraticVoting.Fault
import QuadraticVoting.Log.Template
import QuadraticVoting.Log.Verdict
import QuadraticVoting.Text.Digit
import QuadraticVoting.Text.Word

/-!
# Line formats

A line format is a template that is filled from the fields of a log record. It is tested in four
steps: whatever looks like the end of a conversion, a name in brackets and a letter, has to follow
a percent sign; there has to be a conversion with a name; a sample record has to fill the
template; and the line that comes out must hold nothing that looks like the end of a conversion.

A sample that does not fill the template is a verdict on the format, but a number or a text that
grows out of all bounds on the way is a fault.
-/

namespace QuadraticVoting.Log.LineFormat

/-- The format in force when none is given. -/
def standard : String := "%(asctime)s - %(levelname)s - %(name)s - %(message)s"

/-! ### Conversions by their look -/

def isLetter (c : Char) : Bool := ('a' ≤ c && c ≤ 'z') || ('A' ≤ c && c ≤ 'Z')

def isNameStart (c : Char) : Bool := isLetter c || c == '_'

def isNameChar (c : Char) : Bool := isNameStart c || ('0' ≤ c && c ≤ '9')

/-- Whether a name goes on up to a bracket with a letter behind it. -/
def endsSpecifier : List Char → Bool
  | [] => false
  | c :: cs => if isNameChar c then endsSpecifier cs else c == ')' && cs.head?.any isLetter

/-- Whether a text starts with a name in brackets and a letter. -/
def startsWithSpecifier : List Char → Bool
  | '(' :: c :: cs => isNameStart c && endsSpecifier cs
  | _ => false

def hasSpecifier : List Char → Bool
  | [] => false
  | c :: cs => startsWithSpecifier (c :: cs) || hasSpecifier cs

/-- Whether every specifier follows a percent sign; `marked` says whether one stands just before
the text. -/
def allMarked : (marked : Bool) → List Char → Bool
  | _, [] => true
  | marked, c :: cs => (marked || !startsWithSpecifier (c :: cs)) && allMarked (c == '%') cs

/-- The letters that end a recognised conversion, in either case; a dotless or dotted i and a long
s count as well. -/
def isConversionEnd (c : Char) : Bool :=
  "diouxefgcrsaDIOUXEFGCRSA%".toList.contains c || c.toNat == 0x130 || c.toNat == 0x131
    || c.toNat == 0x17F

/-- The text after a star or a run of digits of any script, if there is one. -/
def dropSize : List Char → List Char
  | '*' :: cs => cs
  | cs => cs.dropWhile Text.isDigit

/-- The text after a precision, if there is a complete one. -/
def dropPrecision : List Char → List Char
  | '.' :: '*' :: cs => cs
  | '.' :: c :: cs => if Text.isDigit c then cs.dropWhile Text.isDigit else '.' :: c :: cs
  | cs => cs

/-- Whether a text starts with a conversion with a name, as it is usually written. -/
def startsWithConversion : List Char → Bool
  | '%' :: '(' :: cs =>
    !(cs.takeWhile Text.isWord).isEmpty &&
      match cs.dropWhile Text.isWord with
      | ')' :: rest =>
        match dropPrecision (dropSize (rest.dropWhile Template.isFlag)) with
        | c :: _ => isConversionEnd c
        | [] => false
      | _ => false
  | _ => false

def hasConversion : List Char → Bool
  | [] => false
  | c :: cs => startsWithConversion (c :: cs) || hasConversion cs

/-! ### Fillings

A name may have zeros in it and neither blanks nor zeros in front, and a blank or a zero ends no
name. So one of them is as good as many.
-/

def IsFiller (c : Char) : Prop := c = ' ' ∨ c = '0'

theorem endsSpecifier_filler {f : Char} (h : IsFiller f) (a b : List Char) :
    endsSpecifier (a ++ f :: f :: b) = endsSpecifier (a ++ f :: b) := by
  induction a with
  | nil => rcases h with rfl | rfl <;> rfl
  | cons c a ih =>
    simp only [List.cons_append, endsSpecifier, ih]
    cases a <;> rfl

theorem startsWithSpecifier_filler {f : Char} (h : IsFiller f) (a b : List Char) :
    startsWithSpecifier (a ++ f :: f :: b) = startsWithSpecifier (a ++ f :: b) := by
  match a with
  | [] => rcases h with rfl | rfl <;> rfl
  | [c] =>
    by_cases hc : c = '('
    · subst hc; rcases h with rfl | rfl <;> rfl
    · simp [startsWithSpecifier, hc]
  | c :: d :: a =>
    by_cases hc : c = '('
    · subst hc; simp only [List.cons_append, startsWithSpecifier, endsSpecifier_filler h]
    · simp [startsWithSpecifier, hc]

theorem hasSpecifier_filler {f : Char} (h : IsFiller f) (a b : List Char) :
    hasSpecifier (a ++ f :: f :: b) = hasSpecifier (a ++ f :: b) := by
  induction a with
  | nil => rcases h with rfl | rfl <;> simp [hasSpecifier, startsWithSpecifier]
  | cons c a ih =>
    have := startsWithSpecifier_filler h (c :: a) b
    simp only [List.cons_append] at this ⊢
    rw [hasSpecifier, hasSpecifier, ih, this]

theorem hasSpecifier_replicate {f : Char} (h : IsFiller f) (n : Nat) (a b : List Char) :
    hasSpecifier (a ++ (List.replicate n f ++ b)) =
      hasSpecifier (a ++ (List.replicate (min n 1) f ++ b)) := by
  induction n with
  | zero => rfl
  | succ n ih =>
    cases n with
    | zero => rfl
    | succ n =>
      refine (hasSpecifier_filler h a (List.replicate n f ++ b)).trans ?_
      rw [Nat.min_eq_right (Nat.le_add_left 1 n)] at ih
      rw [Nat.min_eq_right (Nat.le_add_left 1 (n + 1))]
      exact ih

theorem hasSpecifier_brief (l : List Strand) (a : List Char) :
    hasSpecifier (a ++ (Strand.textOf (l.map .brief)).masked) =
      hasSpecifier (a ++ (Strand.textOf l).masked) := by
  induction l generalizing a with
  | nil => rfl
  | cons s l ih =>
    cases s <;> simp only [List.map_cons, Strand.textOf_cons, Strand.brief, Strand.text,
      Text.masked_append, Text.masked_ofChars]
    case plain t => simpa using ih (a ++ t.masked)
    case blanks n =>
      rw [hasSpecifier_replicate (.inl rfl) n]
      simpa using ih (a ++ List.replicate (min n 1) ' ')
    case zeros n =>
      rw [hasSpecifier_replicate (.inr rfl) n]
      simpa using ih (a ++ List.replicate (min n 1) '0')

/-! ### The sample record -/

open Template (Operand)

/-- When and where a record is made: the time, the time since the start in thousandths of a second,
and the thread and the process, with the words of the host for them. -/
structure Scene where
  created : Double
  msecs : Double
  relativeCreated : Double
  thread : UInt64
  threadName : Text
  processName : Text
  process : UInt32
  /-- The time as the host writes it. -/
  asctime : Text

/-- A scene on which examples are worked out. -/
def Scene.usual : Scene where
  created := .ofDecimal false 17000000001235 (-4)
  msecs := .ofDecimal false 123 0
  relativeCreated := .ofDecimal false 23455 (-1)
  thread := 140737353979712
  threadName := "MainThread"
  processName := "MainProcess"
  process := 4242
  asctime := "2023-11-14 22:13:20,123"

/-- Whether a format asks for the time in writing. -/
def usesTime : List Char → Bool
  | [] => false
  | c :: cs => "%(asctime)".toList.isPrefixOf (c :: cs) || usesTime cs

/-- The fields that the record of a scene always has, if it is logged to try a format out. -/
def fields (scene : Scene) : List (Text × Operand) := [
  ("name", .value (.text "test")),
  ("msg", .value (.text "test")),
  ("args", .shown "tuple" "()"),
  ("levelname", .value (.text "INFO")),
  ("levelno", .value (.int 20)),
  ("pathname", .value (.text "")),
  ("filename", .value (.text "")),
  ("module", .value (.text "")),
  ("exc_info", .value .null),
  ("exc_text", .value .null),
  ("stack_info", .value .null),
  ("lineno", .value (.int 0)),
  ("funcName", .value .null),
  ("created", .value (.real scene.created)),
  ("msecs", .value (.real scene.msecs)),
  ("relativeCreated", .value (.real scene.relativeCreated)),
  ("thread", .value (.int scene.thread.toNat)),
  ("threadName", .value (.text scene.threadName)),
  ("processName", .value (.text scene.processName)),
  ("process", .value (.int scene.process.toNat)),
  ("message", .value (.text "test"))]

def sample (scene : Scene) (format : Text) : List (Text × Operand) :=
  if usesTime format.masked then (fields scene).concat ("asctime", .value (.text scene.asctime))
  else fields scene

/-! ### The test -/

/-- Whether a failure is a number or a text out of all bounds. -/
def isBoundless (why : Template.Failure) : Bool :=
  why.kind = .outOfRange || why.kind = .outOfMemory

section AnyHost

variable [Host]

/-- What the sample record of a scene is written as. -/
def trial (scene : Scene) (format : Text) : Except Template.Failure Text :=
  Template.fill format (.ofTable (sample scene format))

/-- Whether a format passes the test. The line is looked at with its fillings cut short, which
makes no difference (`passes_eq`). -/
def passes (scene : Scene) (format : Text) : Except Template.Failure Bool :=
  if allMarked false format.masked && hasConversion format.masked then do
    let line ← Template.strands format (.ofTable (sample scene format))
    return !hasSpecifier (Strand.textOf (line.map .brief)).masked
  else .ok false

theorem passes_eq (scene : Scene) (format : Text) :
    passes scene format =
      if allMarked false format.masked && hasConversion format.masked then
        (trial scene format).map fun line => !hasSpecifier line.masked
      else .ok false := by
  unfold passes trial Template.fill
  split
  · cases Template.strands format (.ofTable (sample scene format)) with
    | error _ => rfl
    | ok line => exact congrArg (Except.ok !·) (hasSpecifier_brief line [])
  · rfl

def validate (scene : Scene) (format : Text) : Except Fault Verdict :=
  if format = "" then .ok (.accept standard)
  else
    match passes scene format with
    | .ok true => .ok (.accept format)
    | .ok false => .ok (.reject standard)
    | .error why =>
      if isBoundless why then .error (.unfilledTemplate why) else .ok (.reject standard)

end AnyHost

end QuadraticVoting.Log.LineFormat
