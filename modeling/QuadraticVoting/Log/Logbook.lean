import QuadraticVoting.FileTree
import QuadraticVoting.Log.Record

/-!
# The logbook

Where records go. A logbook has a threshold and handlers, each of which passes lines to the
console or to a file; it is set up once, by `configure` or by the first use, and `apply` changes
its threshold later and may add a file. A file is known by its path as it is written out, so that no
such path has two handlers.

A record at or above the threshold is written by every handler whose own threshold it reaches. If
there are no handlers at all, the bare messages of warnings and worse go to the console.

A handler may fail at a record: no line can be made of it, or a file does not take the line, as it
takes only what has a UTF-8 form. The handler then reports it on the console, and the next one goes
on. But there are faults that the caller is told of, and then the handlers that come after it get
nothing: all those of a console that shows records in a style of its own, and otherwise values that
lie too deep in one another. What a style makes of a record (`Style`), and how reports read
(`Entry.text`), is up to the host.
-/

namespace QuadraticVoting.Log

/-- The size at which a log file is closed and a new one begun. -/
def maxFileSize : Nat := 10 * 1024 * 1024

/-- How many closed log files are kept. -/
def backupCount : Nat := 5

inductive Outlet
  | console
  | file (path : Path)
deriving DecidableEq

structure Handler where
  outlet : Outlet
  threshold : Nat
  /-- Whether the path of the file is written with two slashes at its beginning. -/
  doubled : Bool := false
deriving DecidableEq

/-- What a console with a style of its own shows of a record, or the fault that the caller is told
of. -/
abbrev Style := Record → Except Fault Text

/-- What is written: a line, or a report that the handler at an outlet could not write a record. -/
inductive Entry
  | line (text : Text)
  | report (outlet : Outlet) (record : Record) (why : Fault)
deriving DecidableEq

namespace Entry

def line? : Entry → Option Text
  | line text => some text
  | report .. => none

@[simp] theorem line?_line (text : Text) : (line text).line? = some text := rfl

@[simp] theorem line?_report (o : Outlet) (r : Record) (why : Fault) :
    (report o r why).line? = none := rfl

/-- An entry as it is written: a line with a newline behind it, a report as the host words it. -/
def text (reports : Outlet → Record → Fault → Text) : Entry → Text
  | line text => text ++ "\n"
  | report outlet record why => reports outlet record why

end Entry

structure Logbook where
  /-- The style of the console, if it has one of its own. -/
  style : Option Style
  /-- Whether records go to a file unless it is said otherwise. -/
  fileByDefault : Bool
  configured : Bool
  threshold : Nat
  handlers : List Handler
  /-- The lines of every file that has been opened. -/
  files : FileTree (List Text)
  console : List Entry

namespace Logbook

/-- The file that is used when none is named. -/
def standardFile : String := "logs/qvote.log"

/-- A logbook before it is set up. -/
def fresh (folder : Path) (style : Option Style) (fileByDefault : Bool) : Logbook :=
  ⟨style, fileByDefault, false, Level.info.number, [], .empty folder, []⟩

instance : Inhabited Logbook := ⟨fresh .root none false⟩

def pathOf (b : Logbook) (text : Text) : Path := .ofText b.files.base text

/-! ### Setting up -/

variable [Host]

/-- Open a file, with the folders on the way to it, and add a handler for it. -/
def attach (b : Logbook) (text : Text) (threshold : Nat) : Reply Logbook Unit :=
  let path := b.pathOf text
  let opened := (b.files.makeWay (Route.ofText text).parent).andThen fun t _ => t.openFile path []
  (opened.within fun t => { b with files := t }).onDone fun _ b =>
    { b with handlers := b.handlers ++ [⟨.file path, threshold, Route.doublesRoot text⟩] }

/-- What a logbook is asked for when it is set up. -/
structure Request where
  level : Option Text
  file : Option Text
  console : Bool
  fileOutput : Option Bool
deriving DecidableEq

namespace Request

def standard : Request := ⟨none, none, true, none⟩

instance : Inhabited Request := ⟨standard⟩

/-- An empty word asks for the standard level. -/
def threshold (q : Request) : Except Fault Nat :=
  match q.level with
  | none => .ok Level.info.number
  | some word => if word = "" then .ok Level.info.number else Level.numberOfWord word

def fileText (q : Request) : Text := q.file.getD standardFile

end Request

/-- Set up a logbook that is not set up yet; one that is stays as it is. -/
def configure (b : Logbook) (q : Request) : Reply Logbook Unit :=
  if b.configured then .done b ()
  else
    .check b q.threshold fun n =>
      let b := { b with
        threshold := n
        handlers := if q.console then [⟨.console, n, false⟩] else [] }
      let opened :=
        if q.fileOutput.getD b.fileByDefault then b.attach q.fileText n else .done b ()
      opened.onDone fun _ b => { b with configured := true }

/-- Whether there is a handler for the file that a text names. -/
def hasFile (b : Logbook) (text : Text) : Bool :=
  b.handlers.any fun h => h.outlet = .file (b.pathOf text) && h.doubled = Route.doublesRoot text

/-- Set the threshold, and add a file unless it is there already. -/
def apply (b : Logbook) (level : Text) (file : Option Text) : Reply Logbook Unit :=
  (b.configure { Request.standard with level := some level }).andThen fun b _ =>
    .check b (Level.numberOfWord level) fun n =>
      let b := { b with
        threshold := n
        handlers := b.handlers.map fun h => { h with threshold := n } }
      match file with
      | none => .done b ()
      | some f => if b.hasFile f then .done b () else b.attach f n

/-! ### Writing -/

/-- Write an entry on the console. -/
def print (b : Logbook) (e : Entry) : Logbook := { b with console := b.console ++ [e] }

/-- Write a line to a file. -/
def append (b : Logbook) (path : Path) (line : Text) : Logbook :=
  { b with files := b.files.update path (· ++ [line]) }

/-- Report that the handler at an outlet could not write a record. The report ends with the
arguments: if they lie too deep in one another, it breaks off there and the caller is told. -/
def report (b : Logbook) (o : Outlet) (r : Record) (why : Fault) : Reply Logbook Unit :=
  let b := b.print (.report o r why)
  if r.arguments.excess? = some .nesting then .fail b (.excess .nesting) else .done b ()

/-- Write what was made of a record on a console without a style. -/
def writePlain (b : Logbook) (r : Record) (text : Except Fault Text) : Reply Logbook Unit :=
  match text with
  | .ok text => .done (b.print (.line text)) ()
  | .error f => if f.kind = .tooDeep then .fail b f else b.report .console r f

def writeFile (b : Logbook) (r : Record) (path : Path) : Reply Logbook Unit :=
  match r.line with
  | .ok line =>
    if line.hasSurrogate then b.report (.file path) r (.notEncodable line)
    else .done (b.append path line) ()
  | .error f => b.report (.file path) r f

def deliver (b : Logbook) (r : Record) (h : Handler) : Reply Logbook Unit :=
  if r.level.number < h.threshold then .done b ()
  else
    match h.outlet, b.style with
    | .console, none => b.writePlain r r.line
    | .console, some style =>
      .check b (style r) fun shown => .done (b.print (.line shown)) ()
    | .file path, _ => b.writeFile r path

/-- What becomes of a record that nobody handles. -/
def lastResort (b : Logbook) (r : Record) : Reply Logbook Unit :=
  if r.level.number < Level.warning.number then .done b () else b.writePlain r r.message

def write (b : Logbook) (r : Record) : Reply Logbook Unit :=
  if r.level.number < b.threshold then .done b ()
  else if b.handlers = [] then b.lastResort r
  else b.handlers.foldl (fun q h => q.andThen fun b _ => b.deliver r h) (.done b ())

/-- Write a record, after setting up if need be. -/
def log (b : Logbook) (r : Record) : Reply Logbook Unit :=
  (b.configure .standard).andThen fun b _ => b.write r

/-- The name of the logger above all others, which is also the one without a name. -/
def rootLogger : String := "root"

/-- Write a message at the level that a word stands for; at no level nothing is written. -/
def logAt (b : Logbook) (word logger : Text) (created : Int) (template : Text)
    (args : List Value) : Reply Logbook Unit :=
  match (Level.numberOfWord word).map Level.ofNumber? with
  | .ok (some level) =>
    b.log ⟨level, if logger = "" then rootLogger else logger, created, template, args⟩
  | .ok none => b.configure .standard
  | .error _ => (b.configure .standard).andThen fun b _ => .fail b .levelNotANumber

/-- All that is written for entries, one after the other. -/
def textOf (reports : Outlet → Record → Fault → Text) (entries : List Entry) : Text :=
  entries.foldl (fun t e => t ++ e.text reports) ""

end Logbook

end QuadraticVoting.Log
