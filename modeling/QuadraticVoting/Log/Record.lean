import QuadraticVoting.Log.Moment
import QuadraticVoting.Log.Notice
import QuadraticVoting.Log.Sanitize
import QuadraticVoting.Log.Template

/-!
# Records

A record is what a logger hands to its outlets: a level, the logger's name, the second at which it
was made, and a message, which is a template when it comes with arguments. `Record.line` is the
line that is written for it. It fails when the arguments do not fill the template or the time has
no date.
-/

namespace QuadraticVoting.Log

structure Record where
  level : Level
  logger : Text
  created : Int
  template : Text
  args : List Value
deriving DecidableEq

namespace Record

def ofNotice (n : Notice) (created : Int) : Record := ⟨n.level, n.logger, created, n.text, []⟩

/-- The arguments as one value; a single table that is not empty stands for itself. -/
def arguments (r : Record) : Value :=
  match r.args with
  | [.table (e :: l)] => .table (e :: l)
  | args => .list args

def message [Host] (r : Record) : Except Fault Text :=
  if r.args = [] then .ok r.template
  else (Template.fill r.template (.ofArguments r.args)).mapError .unfilledTemplate

/-- All that stands before the message. -/
def header (r : Record) (m : Moment) : Text :=
  m.text ++ " UTC - " ++ r.level.name ++ " - " ++ r.logger ++ " - "

def line [Host] (r : Record) : Except Fault Text := do
  let message ← r.message
  let moment ← Moment.ofSeconds r.created
  return sanitize (r.header moment ++ message)

end Record

end QuadraticVoting.Log
