import Workbench.Call
import Workbench.Files.Path

/-!
# Files of the user

Operations on files are dialogues: `save` puts a download into a directory, which it makes if need
be, and `pick` reads the file that the user has named beforehand. `Files.Tree` answers them from
memory.
-/
namespace Workbench

/-- Why the operating system refuses an operation on files. -/
inductive FileError
  | notFound
  | alreadyExists
  | notADirectory
  | isADirectory
  | nameTooLong
  | nulByte
  | other (code : Nat) (message : String)
  deriving DecidableEq, Repr

def FileError.message : FileError → String
  | .notFound => "No such file or directory (os error 2)"
  | .alreadyExists => "File exists (os error 17)"
  | .notADirectory => "Not a directory (os error 20)"
  | .isADirectory => "Is a directory (os error 21)"
  | .nameTooLong => "File name too long (os error 36)"
  | .nulByte => "file name contained an unexpected NUL byte"
  | .other code m => s!"{m} (os error {code})"

namespace Files

inductive Call
  | read (path : String)
  | write (path : String) (contents : List UInt8)
  /-- Makes a directory and those above it, as far as they are missing. -/
  | makeDirectories (path : String)
  | doesExist (path : String)
  deriving DecidableEq, Repr

def Call.Reply : Call → Type
  | .read _ => Except FileError (List UInt8)
  | .write _ _ => Except FileError Unit
  | .makeDirectories _ => Except FileError Unit
  | .doesExist _ => Bool

abbrev Session (α : Type) := Dialogue Call Call.Reply α

def call (c : Call) : Session c.Reply := Dialogue.call c

def read (path : String) : Session (Except FileError (List UInt8)) := call (.read path)

def write (path : String) (contents : List UInt8) : Session (Except FileError Unit) :=
  call (.write path contents)

def makeDirectories (path : String) : Session (Except FileError Unit) :=
  call (.makeDirectories path)

def doesExist (path : String) : Session Bool := call (.doesExist path)

/-- Saves a download; the path that it got. -/
def save (dir fileName : String) (contents : List UInt8) : Session (Except FileError String) := do
  match ← makeDirectories dir with
  | .error e => return .error e
  | .ok () =>
    let path := joinPath dir fileName
    match ← write path contents with
    | .error e => return .error e
    | .ok () => return .ok path

/-- Reads the file at `path`; without a path nothing has been picked. -/
def pick (path : Option String) : Session (Except FileError (Option PickedFile)) := do
  match path with
  | none => return .ok none
  | some path =>
    match ← read path with
    | .error e => return .error e
    | .ok contents => return .ok (some ⟨((Path.parse path).fileName?).getD path, contents⟩)

end Files

end Workbench
