import QuadraticVoting.Text.Basic
import QuadraticVoting.Text.Blank
import QuadraticVoting.Text.Digit
import QuadraticVoting.Text.Scan

/-!
# Highlighting

The parts of a log line that a terminal shows in colour, each with the group that names its
colour. Their places are counted among the characters that are shown; which these are is up to the
terminal. `rules` lists the groups in the order in which they are applied; the parts of one group
come from left to right.
-/

namespace QuadraticVoting.Log.Highlight

open Text (Rule Span after? afterRun? isBlank isDigit isWord isWordAt upTo)

def arrow : Rule := .words ["-->".toList, "<--".toList, "→".toList]

def level (name : String) : Rule := .wholeWords [name.toList]

def isNameChar (c : Char) : Bool := isWord c || c == '.'

/-- Whether a text starts with a dash between blanks. -/
def startsWithDash : List Char → Bool
  | a :: '-' :: b :: _ => isBlank a && isBlank b
  | _ => false

/-- What follows a dash, blanks, a word, blanks, a dash and blanks: the text from a logger's name
on. -/
def afterLevel? (cs : List Char) : Option (List Char) := do
  let cs ← after? ['-'] cs
  let cs ← afterRun? isBlank cs
  let cs ← afterRun? isWord cs
  let cs ← afterRun? isBlank cs
  let cs ← after? ['-'] cs
  afterRun? isBlank cs

/-- The name of the logger, between the level and the message. -/
def loggerName : Rule := fun _ cs => do
  let name ← afterLevel? cs
  let rest ← afterRun? isNameChar name
  if startsWithDash rest then some ⟨cs.length - rest.length, cs.length - name.length⟩ else none

def proposal : Rule := fun _ cs => do
  let cs' ← after? "Proposal #".toList cs
  return upTo cs (← afterRun? isDigit cs')

def status : Rule :=
  .wholeWords ["PENDING".toList, "ACTIVE".toList, "ENDED".toList, "CLOSED".toList]

def block : Rule := fun before cs => do
  let cs' ← after? "block ".toList cs
  let rest ← afterRun? isDigit cs'
  if isWordAt before || isWordAt rest.head? then none else some (upTo cs rest)

/-- A text between single quotes that holds neither quotes nor blanks. -/
def account : Rule := fun _ cs => do
  let cs' ← after? ['\''] cs
  let rest ← afterRun? (fun c => c != '\'' && !isBlank c) cs'
  return upTo cs (← after? ['\''] rest)

/-- What follows the first `UTC` of the first line. -/
def afterZone? : List Char → Option (List Char)
  | [] => none
  | c :: cs =>
    match after? "UTC".toList (c :: cs) with
    | some rest => some rest
    | none => if c = '\n' then none else afterZone? cs

/-- All up to the zone, at the start of the text alone. -/
def timestamp : Rule := fun before cs =>
  match before with
  | some _ => none
  | none => (afterZone? cs).map (upTo cs)

def rules : List (String × Rule) := [
  ("arrow", arrow),
  ("level_critical", level "CRITICAL"),
  ("level_debug", level "DEBUG"),
  ("level_error", level "ERROR"),
  ("level_info", level "INFO"),
  ("logger_name", loggerName),
  ("level_warning", level "WARNING"),
  ("proposal", proposal),
  ("aye", .wholeWords ["AYE".toList]),
  ("nay", .wholeWords ["NAY".toList]),
  ("status", status),
  ("block", block),
  ("account", account),
  ("timestamp", timestamp)]

/-- The parts of a line that are highlighted, each with its group, on a terminal that shows these
characters of it. -/
def highlight (shown : Text → List Char) (line : Text) : List (String × Span) :=
  rules.flatMap fun (group, rule) => (Text.spans rule (shown line)).map fun s => (group, s)

/-- The parts of one group. -/
def spansOf (shown : Text → List Char) (group : String) (line : Text) : List Span :=
  ((highlight shown line).filter (·.1 == group)).map (·.2)

end QuadraticVoting.Log.Highlight
