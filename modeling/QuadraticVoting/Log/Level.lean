import QuadraticVoting.Fault
import QuadraticVoting.Text.Upper

/-!
# Log levels

The five levels at which a record is written, each with its number. A threshold is a number too,
so that 0 lets everything through.
-/

namespace QuadraticVoting.Log

inductive Level
  | debug
  | info
  | warning
  | error
  | critical
deriving DecidableEq, Inhabited

namespace Level

def all : List Level := [debug, info, warning, error, critical]

def number : Level → Nat
  | debug => 10
  | info => 20
  | warning => 30
  | error => 40
  | critical => 50

def name : Level → String
  | debug => "DEBUG"
  | info => "INFO"
  | warning => "WARNING"
  | error => "ERROR"
  | critical => "CRITICAL"

def ofName? (s : String) : Option Level := all.find? (·.name == s)

def ofText? (t : Text) : Option Level := t.string?.bind ofName?

/-- The line format that a misleading word stands for. -/
def plainFormat : String := "%(levelname)s:%(name)s:%(message)s"

/-- The table of formats, each under the character that marks a field in it, that a misleading word
stands for. -/
def formatTable : String :=
  "\x7b'%': (<class 'logging.PercentStyle'>, '%(levelname)s:%(name)s:%(message)s'), " ++
    "'\x7b': (<class 'logging.StrFormatStyle'>, " ++
    "'\x7blevelname\x7d:\x7bname\x7d:\x7bmessage\x7d'), " ++
    "'$': (<class 'logging.StringTemplateStyle'>, " ++
    "'$\x7blevelname\x7d:$\x7bname\x7d:$\x7bmessage\x7d')\x7d"

/-- The words that stand for something that is no level. -/
def misleading : List (String × Fault) := [
  ("BASIC_FORMAT", .levelIsText plainFormat),
  ("_STYLES", .levelIsOther formatTable)]

/-- The short and strong names of levels, and the name of no level at all. -/
def synonyms : List (String × Nat) := [
  ("WARN", warning.number), ("FATAL", critical.number), ("NOTSET", 0)]

/-- The number that a word stands for, in whatever case. A word that is unknown stands for
`INFO`. -/
def numberOfWord (word : Text) : Except Fault Nat :=
  match word.upperCase.string? with
  | none => .ok info.number
  | some word =>
    match misleading.lookup word, ofName? word with
    | some f, _ => .error f
    | none, some l => .ok l.number
    | none, none => .ok ((synonyms.lookup word).getD info.number)

def ofNumber? (n : Nat) : Option Level := all.find? (·.number == n)

theorem ofName?_name (l : Level) : ofName? l.name = some l := by cases l <;> decide

theorem ofNumber?_number (l : Level) : ofNumber? l.number = some l := by cases l <;> decide

end Level

end QuadraticVoting.Log
