import QuadraticVoting.Fault
import QuadraticVoting.Log.DateFormat
import QuadraticVoting.Log.Level
import QuadraticVoting.Log.LineFormat
import QuadraticVoting.Text.Blank
import QuadraticVoting.Text.Fold

/-!
# Preferences

The preferences of the log, each given as a text or not at all. A text is a truth value when the
word that is left without the blanks around it is *true* or *false* up to case, and it is itself
otherwise. A preference remembers its standard reading.

What is up to case is decided by folding. The word is then spelled in title case and read as a
constant, which has one spelling only. A word that is no constant is told with the place in memory
at which the host keeps it, which no two runs share.
-/

namespace QuadraticVoting

/-- What a preference says. -/
inductive Reading
  | truth (b : Bool)
  | text (t : Text)
deriving DecidableEq, Inhabited

namespace Reading

def toValue : Reading → Value
  | truth b => .bool b
  | text t => .text t

/-- Whether a word is *true* or *false* up to case. -/
def isTruthWord (word : List Char) : Bool :=
  let folded := Text.foldCase word
  folded = "true".toList || folded = "false".toList

/-- A word with a capital at its start and small letters after it. Only plain letters change: the
one other letter that a truth word can hold is the long s, which is small and never comes first. -/
def titled : List Char → List Char
  | [] => []
  | c :: cs => c.toUpper :: cs.map Char.toLower

/-- The truth value of the constant with a name. -/
def constant (place : Nat) (name : List Char) : Except Fault Bool :=
  if name = "True".toList then .ok true
  else if name = "False".toList then .ok false
  else .error (.unreadableTruth place)

def ofText (place : Nat) (t : Text) : Except Fault Reading :=
  let word := Text.trimBlanks t.masked
  if isTruthWord word then (constant place (titled word)).map truth else .ok (text t)

/-- Read a value: texts as above, all else as it is. -/
def value (place : Nat) (v : Value) : Except Fault Value :=
  match v with
  | .text t => (ofText place t).map toValue
  | v => .ok v

end Reading

structure Preference where
  reading : Reading
  standard : Reading
deriving DecidableEq, Inhabited

namespace Preference

def load (place : Nat) (given : Option Text) (standard : String) : Except Fault Preference := do
  return ⟨← Reading.ofText place (given.getD standard), ← Reading.ofText place standard⟩

/-- Whether a preference is equal to a reading; truth values and texts are never equal. -/
def equals (p : Preference) (r : Reading) : Bool := p.reading = r

/-- The preferences and their standard texts. -/
def standards : List (String × String) := [
  ("LOG_LEVEL", Log.Level.info.name),
  ("LOG_FORMAT", Log.LineFormat.standard),
  ("LOG_DATE_FORMAT", Log.DateFormat.standard),
  ("LOG_CONSOLE_HIGHLIGHTING", "True"),
  ("LOG_FILE_OUTPUT", "False")]

/-- The text given under a name, if there is one. -/
def given? (given : List (Text × Option Text)) (name : String) : Option Text :=
  ((given.find? (·.1 == (name : Text))).map (·.2)).join

/-- Load every preference from the texts given by name; other names do not count. -/
def loadAll (place : Nat) (given : List (Text × Option Text)) :
    Except Fault (List (String × Preference)) :=
  standards.mapM fun (name, standard) => do
    return (name, ← load place (given? given name) standard)

end Preference

end QuadraticVoting
