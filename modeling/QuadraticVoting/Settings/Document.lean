import QuadraticVoting.Log.Level
import QuadraticVoting.Reply
import QuadraticVoting.Settings.Limits
import QuadraticVoting.Text.Bytes
import QuadraticVoting.Text.Numeral
import QuadraticVoting.Text.Upper

/-!
# Settings

The settings of the library: the governance limits, and the level and file of the log. They come
from a document, whose values may be anything, and each may be overridden by a variable of the
environment; an empty variable counts as unset. Checking comes last, so that a bad value which is
overridden does no harm.

`Settings.toTable` writes settings as the document that reads back as the same settings.
-/

namespace QuadraticVoting

structure LogSettings where
  level : Text
  file : Value
deriving DecidableEq

namespace LogSettings

def standard : LogSettings := ⟨"INFO", .text ""⟩

instance : Inhabited LogSettings := ⟨standard⟩

/-- The level of a table is any value that can be written, read as text in upper case. -/
def ofTable [Host] (t : List (Text × Value)) : Except Fault LogSettings :=
  let level := (Value.field? "level" t).getD (.text standard.level)
  let file := (Value.field? "file_path" t).getD standard.file
  match level.excess? with
  | some what => .error (.excess what)
  | none => .ok ⟨level.plain.upperCase, file⟩

def toTable (l : LogSettings) : List (Text × Value) :=
  [("level", .text l.level), ("file_path", l.file)]

def validate (l : LogSettings) : Except Fault Log.Level :=
  match Log.Level.ofText? l.level with
  | some level => .ok level
  | none => .error (.invalidLevel l.level)

end LogSettings

structure Settings where
  limits : RawLimits
  log : LogSettings
deriving DecidableEq

/-- Settings that have been checked. -/
structure ValidSettings where
  limits : Limits
  level : Log.Level
  file : Value
deriving DecidableEq

/-- What an assembly and its log are set up with. -/
structure Setup where
  limits : Limits
  level : Log.Level
  file : Option Text
deriving DecidableEq

/-- The log file that is asked for, which must be a text if it is anything at all. -/
def ValidSettings.path (s : ValidSettings) : Except Fault (Option Text) :=
  if !s.file.truthy then .ok none
  else match s.file with
    | .text t => .ok (some t)
    | v => .error (.notAPath v)

namespace Settings

def standard : Settings := ⟨.standard, .standard⟩

instance : Inhabited Settings := ⟨standard⟩

/-- The pairs of a value that should be a table. -/
def tableOf (name : String) : Value → Except Fault (List (Text × Value))
  | .table t => .ok t
  | _ => .error (.sectionNotATable name)

/-- The section of a document under a name; one that is not there is empty. -/
def sectionOf (name : String) (doc : List (Text × Value)) :
    Except Fault (List (Text × Value)) :=
  match Value.field? name doc with
  | none => .ok []
  | some v => tableOf name v

variable [Host]

def ofTable (doc : List (Text × Value)) : Except Fault Settings := do
  let limits ← sectionOf "governance" doc
  let log ← sectionOf "logging" doc
  return ⟨.ofTable limits, ← LogSettings.ofTable log⟩

def ofValue (doc : Value) : Except Fault Settings := do
  ofTable (← tableOf "document" doc)

def toTable (s : Settings) : List (Text × Value) :=
  [("governance", .table s.limits.toTable), ("logging", .table s.log.toTable)]

def validate (s : Settings) : Except Fault ValidSettings := do
  let limits ← s.limits.validate
  let level ← s.log.validate
  return ⟨limits, level, s.log.file⟩

/-- Check settings and all that is needed to set up with them. -/
def setup (s : Settings) : Except Fault Setup := do
  let valid ← s.validate
  return ⟨valid.limits, valid.level, ← valid.path⟩

end Settings

/-! ### The environment -/

/-- The variables that are set, by name. -/
abbrev Environment := List (Text × Text)

namespace Environment

/-- What a host reads again of a text that it kept as bytes. -/
def keep (t : Text) : Except Fault Text :=
  match t.throughHost? with
  | none => .error (.notEncodable t)
  | some kept => .ok kept

/-- A variable as a host keeps it: no null byte, and a name without an equals sign. -/
def entry (name value : Text) : Except Fault (Text × Text) := do
  let kept := (← keep name, ← keep value)
  if (name ++ value).toList.contains '\x00' then throw .nullByte
  if name.toList.contains '=' then throw (.variableName name)
  if name = "" then throw .unnamedVariable
  return kept

/-- The environment in which variables are set to texts. -/
def ofTexts (l : List (Text × Text)) : Except Fault Environment :=
  l.mapM fun (name, value) => entry name value

def valueOf (env : Environment) (name : String) : Option Text :=
  (env.find? (·.1 == (name : Text))).map (·.2)

/-- The value of a variable that is set and not empty. -/
def get? (env : Environment) (name : String) : Option Text :=
  (env.valueOf name).filter (· ≠ "")

def integer (env : Environment) (name : String) : Except Fault (Option Int) :=
  match env.get? name with
  | none => .ok none
  | some t =>
    match t.integer? with
    | some n => .ok (some n)
    | none => .error (.notAnInteger name t)

end Environment

namespace RawLimits

/-- The variables that override limits, each with what it overrides, in the order in which they
are read. -/
def overrides : List (String × (Value → RawLimits → RawLimits)) := [
  ("QVOTE_OFFCHAIN_DATA_LIMIT", fun v l => { l with payload := v }),
  ("QVOTE_ACCOUNT_SIZE_LIMIT", fun v l => { l with accounts := v }),
  ("QVOTE_MAXIMUM_DURATION", fun v l => { l with maximum := v }),
  ("QVOTE_MINIMUM_DURATION", fun v l => { l with minimum := v }),
  ("QVOTE_DELAY_LIMIT", fun v l => { l with delay := v })]

variable [Host]

/-- Apply overrides one by one, up to the first variable that is no integer. -/
def overrideAll (env : Environment) (l : RawLimits) :
    List (String × (Value → RawLimits → RawLimits)) → Reply RawLimits Unit
  | [] => .done l ()
  | (name, put) :: rest =>
    .check l (env.integer name) fun n =>
      match n with
      | none => overrideAll env l rest
      | some n => overrideAll env (put (.int n) l) rest

def override (l : RawLimits) (env : Environment) : Reply RawLimits Unit :=
  overrideAll env l overrides

end RawLimits

namespace LogSettings

def override (l : LogSettings) (env : Environment) : LogSettings where
  level := ((env.get? "QVOTE_LOG_LEVEL").map Text.upperCase).getD l.level
  file := ((env.get? "QVOTE_LOG_FILE").map Value.text).getD l.file

end LogSettings

namespace Settings

/-- Apply the environment. What was overridden before a bad variable stays overridden. -/
def override [Host] (s : Settings) (env : Environment) : Reply Settings Unit :=
  ((s.limits.override env).within fun l => { s with limits := l }).andThen fun s _ =>
    .done { s with log := s.log.override env } ()

end Settings

end QuadraticVoting
