import QuadraticVoting.FileTree
import QuadraticVoting.Settings.Document
import QuadraticVoting.Toml.Document

/-!
# Loading settings

Settings from a file of a file tree. A file that is not there is no failure: the standard
settings are used, and a notice is given. The environment is applied after the file, and `load`
checks what comes out.

The file is the one that is asked for, or else the one that the environment names, or else
`qvote.toml`.
-/

namespace QuadraticVoting

namespace Settings

def standardFile : String := "qvote.toml"

variable [Host]

/-- The settings that the bytes of a file hold. -/
def ofBytes (room : Nat) (path : Text) (bytes : List UInt8) : Except Fault Settings :=
  match String.fromUTF8? ⟨bytes.toArray⟩ with
  | none => .error (.fileNotUtf8 path)
  | some s =>
    match Toml.parse room s with
    | .error .malformed => .error (.malformedFile path)
    | .error (.tooManyDigits n) => .error (.tooManyDigits n)
    | .error .tooDeep => .error (.excess .nesting)
    | .ok doc => ofTable doc

/-- The settings of a file, without the environment. -/
def read (room : Nat) (t : FileTree (List UInt8)) (path : Text) : Reply Unit Settings :=
  .check () (t.find (.ofText path)) fun
    | .folder => .fail () (.pathIsFolder path)
    | .file bytes => .check () (ofBytes room path bytes) fun s => .done () s
    | .nothing => ⟨.ok .standard, (), [.settingsMissing path]⟩

/-- The settings of a file with the environment applied, not yet checked. -/
def readWith (room : Nat) (t : FileTree (List UInt8)) (env : Environment) (path : Value) :
    Reply Unit Settings :=
  match path with
  | .text path =>
    (read room t path).andThen fun _ s =>
      let r := s.override env
      ⟨r.result.map fun _ => r.state, (), r.notices⟩
  | v => .fail () (.notAPath v)

def ofFile (t : FileTree (List UInt8)) (env : Environment) (path : Value) : Reply Unit Settings :=
  readWith Host.fileRoom t env path

/-- The file to load when none is asked for. -/
def fileFor (env : Environment) : Value → Value
  | .null => .text ((env.valueOf "QVOTE_CONFIG").getD standardFile)
  | v => v

/-- The settings to work with, which must be valid. Choosing the file takes some room. -/
def load (t : FileTree (List UInt8)) (env : Environment) (path : Value) : Reply Unit Settings :=
  (readWith (Host.fileRoom - 1) t env (fileFor env path)).andThen fun _ s =>
    .check () s.validate fun _ => .done () s

end Settings

end QuadraticVoting
