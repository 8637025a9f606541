import QuadraticVoting.OrdMap
import QuadraticVoting.Path
import QuadraticVoting.Reply

/-!
# File trees

Folders and files as a host keeps them, with contents of any type. `resolve` walks a route name by
name: every name on the way has to be that of a folder, and only the last one may be that of a file
or of nothing. `find` says what is there, `makeWay` makes a folder with all that its route leads
through, and `openFile` makes sure that there is a file.

What has been made stays, also when a later step fails.
-/

namespace QuadraticVoting

structure FileTree (α : Type) where
  /-- The folder that is worked in, which is there with all above it. -/
  base : Path
  /-- The folders that have been made. -/
  folders : List Path
  files : OrdMap Path α
deriving DecidableEq

namespace FileTree

variable {α : Type}

/-- A tree in which there is nothing but the folder that is worked in. -/
def empty (base : Path) : FileTree α := ⟨base, [], .empty⟩

instance : Inhabited (FileTree α) := ⟨empty .root⟩

/-- The most bytes that a name has. -/
def maxNameBytes : Nat := 255

/-- The most bytes that the text of a route has. -/
def maxTextBytes : Nat := 4095

/-- Whether a path is that of a folder: whatever holds something is one. -/
def isFolder (t : FileTree α) (path : Path) : Bool :=
  path.covers t.base || t.folders.any path.covers || t.files.keys.any path.holds

/-- What a path may lead to. -/
inductive Place (α : Type)
  | nothing
  | folder
  | file (content : α)
deriving DecidableEq, Inhabited

def placeAt (t : FileTree α) (path : Path) : Place α :=
  if t.isFolder path then .folder
  else
    match t.files.get? path with
    | some content => .file content
    | none => .nothing

/-! ### Walking -/

/-- Walk along names from a folder, whose names are given from last to first. -/
def walk (t : FileTree α) (text : Text) (folder : List Text) : List Text → Except Fault Path
  | [] => .ok ⟨folder.reverse⟩
  | name :: rest =>
    let here := Path.step folder name
    if maxNameBytes < name.hostSize then .error (.nameTooLong text)
    else if rest = [] then .ok (Path.kept ⟨here.reverse⟩)
    else
      match t.placeAt (Path.kept ⟨here.reverse⟩) with
      | .folder => walk t text here rest
      | .file _ => .error (.notAFolder text)
      | .nothing => .error (.pathNotThere text)

def resolve (t : FileTree α) (r : Route) : Except Fault Path :=
  if r.text.hostBytes? = none then .error (.notEncodable r.text)
  else if r.text.toList.contains '\x00' then .error .nullByte
  else if maxTextBytes < r.text.hostSize then .error (.nameTooLong r.text)
  else t.walk r.text (r.start t.base) r.names

/-- What a route leads to. A walk that is stopped leads to nothing, unless a name is too long. -/
def find (t : FileTree α) (r : Route) : Except Fault (Place α) :=
  match t.resolve r with
  | .ok path => .ok (t.placeAt path)
  | .error (.nameTooLong text) => .error (.nameTooLong text)
  | .error _ => .ok .nothing

/-! ### Making -/

section AnyHost

variable [Host]

/-- Make a folder where there is nothing yet. -/
def makeFolder (t : FileTree α) (r : Route) : Reply (FileTree α) Unit :=
  .check t (t.resolve r) fun path =>
    match t.placeAt path with
    | .nothing => .done { t with folders := t.folders ++ [path] } ()
    | .folder | .file _ => .fail t (.pathTaken r.text)

def leadsToFolder (t : FileTree α) (r : Route) : Bool :=
  match t.find r with
  | .ok .folder => true
  | _ => false

/-- Make a folder unless there is one already. -/
def ensureFolder (t : FileTree α) (r : Route) : Reply (FileTree α) Unit :=
  if t.leadsToFolder r then .done t () else t.makeFolder r

/-- Make a folder, whose names are given from last to first, unless there is one already; when it
cannot be made for want of the folder before it, make that one first. -/
def makeWayBack (t : FileTree α) (fromRoot : Bool) : List Text → Reply (FileTree α) Unit
  | [] => t.ensureFolder ⟨fromRoot, []⟩
  | name :: before =>
    let r : Route := ⟨fromRoot, (name :: before).reverse⟩
    match (t.ensureFolder r).result with
    | .error (.pathNotThere _) =>
      (makeWayBack t fromRoot before).andThen fun t _ => t.ensureFolder r
    | _ => t.ensureFolder r

/-- Make a folder and all that its route leads through. -/
def makeWay (t : FileTree α) (r : Route) : Reply (FileTree α) Unit :=
  t.makeWayBack r.fromRoot r.names.reverse

/-- Make sure that there is a file, which holds what is given if it is a new one. -/
def openFile (t : FileTree α) (path : Path) (content : α) : Reply (FileTree α) Unit :=
  let r := Route.ofPath path
  .check t (t.resolve r) fun path =>
    match t.placeAt path with
    | .nothing => .done { t with files := t.files.insert path content } ()
    | .folder => .fail t (.pathIsFolder r.text)
    | .file _ => .done t ()

end AnyHost

/-- Change the content of a file, if there is one. -/
def update (t : FileTree α) (path : Path) (f : α → α) : FileTree α :=
  match t.files.get? path.kept with
  | some content => { t with files := t.files.insert path.kept (f content) }
  | none => t

/-- The tree of files that are given by their routes. -/
def ofFiles (base : Path) (files : List (Route × α)) : FileTree α :=
  ⟨base, [], .ofList (files.map fun (r, content) => ((r.path base).kept, content))⟩

/-- The files that lie in the folder that is worked in. -/
def ownFiles (t : FileTree α) : List (Path × α) :=
  t.files.entries.filter fun e => t.base.holds e.1

end FileTree

end QuadraticVoting
