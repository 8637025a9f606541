import QuadraticVoting.Fault

/-!
# Entry points

What a host can ask for by name: the entry points, the parts of the library, and the operations
that every part has. `nameOf` gives the name that a thing has itself. Some things have none, which
is another fault than that of a name under which there is nothing.
-/

namespace QuadraticVoting

inductive EntryPoint
  | assembly
  | origin
  | ledger
  | desk
deriving DecidableEq

namespace EntryPoint

def all : List EntryPoint := [assembly, origin, ledger, desk]

def name : EntryPoint → String
  | assembly => "GovernanceRuntime"
  | origin => "Origin"
  | ledger => "BalanceLedger"
  | desk => "VotingInterface"

def ofName? (s : String) : Option EntryPoint := all.find? (·.name == s)

/-- The name of the whole library. -/
def libraryName : String := "qvote"

def parts : List String :=
  ["config", "constants", "exceptions", "governance", "interface", "logger", "tokens"]

/-- The operations, which are named as they are asked for. -/
def operations : List String := [
  "__delattr__", "__dir__", "__eq__", "__format__", "__ge__", "__getattr__", "__getattribute__",
  "__getstate__", "__gt__", "__hash__", "__init__", "__init_subclass__", "__le__", "__lt__",
  "__ne__", "__new__", "__reduce__", "__reduce_ex__", "__repr__", "__setattr__", "__sizeof__",
  "__str__", "__subclasshook__"]

/-- What the library is one of. -/
def sort : String × String := ("__class__", "module")

/-- The facts about the library, which have no names. -/
def facts : List String := [
  "__all__", "__annotations__", "__builtins__", "__cached__", "__dict__", "__doc__", "__file__",
  "__loader__", "__name__", "__package__", "__path__", "__spec__", "__version__"]

/-- The name of what is asked for. -/
def nameOf (name : Text) : Except Fault String :=
  match name.string? with
  | none => .error (.unknownName name)
  | some s =>
    if let some e := ofName? s then .ok e.name
    else if parts.contains s then .ok (libraryName ++ "." ++ s)
    else if operations.contains s then .ok s
    else if s = sort.1 then .ok sort.2
    else if facts.contains s then .error (.nameless s)
    else .error (.unknownName name)

theorem ofName?_name (e : EntryPoint) : ofName? e.name = some e := by cases e <;> rfl

theorem nameOf_name (e : EntryPoint) : nameOf e.name = .ok e.name := by
  simp [nameOf, Text.string?_ofString, ofName?_name]

end EntryPoint

end QuadraticVoting
