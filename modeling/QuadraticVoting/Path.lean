import QuadraticVoting.Text.Bytes

/-!
# Paths and routes

A path is the list of the names that lead to a place from the root. A route is a way to a place as
a text gives it: from the root when the text begins with a slash, and else from a base, the folder
that is worked in. Empty names and single dots in the text do not count.

A double dot in a route is a name like any other, which has to be walked. The path of a route takes
away the name before it instead, so that two routes have the same path when they come to the same
names, however they are spelled. A host that keeps names as bytes may take two names for one;
`Path.kept` is the path that it knows a place by.
-/

namespace QuadraticVoting

structure Path where
  names : List Text
deriving DecidableEq, Inhabited

namespace Path

def root : Path := ⟨[]⟩

/-- Follow a name from a path whose names are given from last to first. Nothing lies above the
root. -/
def step (names : List Text) (name : Text) : List Text :=
  if name = ".." then names.tail else name :: names

/-- Whether the second path is the first one or lies in it. -/
def covers (p q : Path) : Bool := p.names.isPrefixOf q.names

/-- Whether the first path is a folder in which the second one lies. -/
def holds (p q : Path) : Bool := p.covers q && p.names.length < q.names.length

/-- How many names two paths have in common before they part. -/
def sharedLength : List Text → List Text → Nat
  | a :: l, b :: m => if a = b then sharedLength l m + 1 else 0
  | _, _ => 0

/-- The text that gives a path from a base. -/
def textFrom (base p : Path) : Text :=
  let shared := sharedLength base.names p.names
  Text.joined "/" <|
    List.replicate (base.names.length - shared) (".." : Text) ++ p.names.drop shared

/-- The path as a host keeps it, for which every name is bytes. -/
def kept (p : Path) : Path := ⟨p.names.map fun name => name.throughHost?.getD name⟩

end Path

structure Route where
  fromRoot : Bool
  names : List Text
deriving DecidableEq, Inhabited

namespace Route

/-- The parts of a text between slashes. -/
def segments : List CodePoint → List (List CodePoint)
  | [] => [[]]
  | c :: cs =>
    if c = '/' then [] :: segments cs
    else
      match segments cs with
      | [] => [[c]]
      | s :: l => (c :: s) :: l

/-- Whether a part of a text is a name. -/
def isName (name : Text) : Bool := name != "" && name != "."

def ofText (t : Text) : Route :=
  ⟨t.toList.head? = some '/', ((segments t.toList).map Text.ofList).filter isName⟩

def ofPath (p : Path) : Route := ⟨true, p.names⟩

/-- Whether a text begins with two slashes and no more. Such a route goes from the root like any
other, but the text of its path keeps the second slash. -/
def doublesRoot (t : Text) : Bool :=
  match t.toList with
  | .char '/' :: .char '/' :: rest => rest.head? ≠ some '/'
  | _ => false

def text (r : Route) : Text :=
  let names := Text.joined "/" r.names
  if r.fromRoot then "/" ++ names else if r.names = [] then "." else names

/-- The route without its last name. -/
def parent (r : Route) : Route := { r with names := r.names.dropLast }

/-- The names at which a route begins, from last to first. -/
def start (base : Path) (r : Route) : List Text := if r.fromRoot then [] else base.names.reverse

def path (base : Path) (r : Route) : Path := ⟨(r.names.foldl Path.step (r.start base)).reverse⟩

end Route

def Path.ofText (base : Path) (t : Text) : Path := (Route.ofText t).path base

end QuadraticVoting
