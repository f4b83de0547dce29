import Workbench.Text.Split

/-!
# File paths

A path is a text in which slashes separate names. Empty names and the name `.` stand for the
directory they are in, `..` stands for the one above.
-/
namespace Workbench.Files

open Text (splitOn)

/-- What `path` means inside the directory `dir`: a path from the root stands for itself. -/
def joinPath (dir path : String) : String :=
  if path.startsWith "/" ∨ dir = "" then path
  else if dir.endsWith "/" then dir ++ path
  else dir ++ "/" ++ path

structure Path where
  /-- Starts at the root. -/
  absolute : Bool
  names : List String
  /-- Ends with a slash. -/
  trailing : Bool
  deriving DecidableEq, Repr

namespace Path

def parse (s : String) : Path where
  absolute := s.startsWith "/"
  names := ((splitOn '/' s.toList).filter (· ≠ [])).map String.ofList
  trailing := s.endsWith "/"

/-- The path that is empty as a text. -/
def isEmpty (p : Path) : Bool := !p.absolute && p.names.isEmpty

/-- The names without those that stand for the directory they are in. A path may begin with one. -/
def significantNames (p : Path) : List String :=
  match p.absolute, p.names with
  | false, "." :: rest => "." :: rest.filter (· ≠ ".")
  | _, names => names.filter (· ≠ ".")

/-- The path without its last name, unless it is a root or empty. -/
def parent? (p : Path) : Option Path :=
  if p.significantNames.isEmpty then none
  else some ⟨p.absolute, p.significantNames.dropLast, false⟩

theorem parent?_length {p q : Path} (h : p.parent? = some q) : q.names.length < p.names.length := by
  have filter_le (l : List String) : (l.filter (· ≠ ".")).length ≤ l.length := List.length_filter_le ..
  have le : p.significantNames.length ≤ p.names.length := by
    unfold significantNames
    split
    · rename_i heq; rw [heq]; simpa using filter_le _
    · exact filter_le _
  unfold parent? at h
  split at h
  · cases h
  · rename_i hne
    obtain rfl := Option.some.inj h
    have : p.significantNames ≠ [] := by simpa using hne
    have := List.length_pos_iff.mpr this
    simp only [List.length_dropLast]
    omega

def text (p : Path) : String :=
  (if p.absolute then "/" else "") ++ "/".intercalate p.names

/-- The name of the file that a path leads to, if it says so itself. -/
def fileName? (p : Path) : Option String :=
  match p.significantNames.getLast? with
  | some ".." => none
  | some "." => none
  | name => name

end Path

end Workbench.Files
