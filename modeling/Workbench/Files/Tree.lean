import Workbench.Files

/-!
# A tree of files in memory

The directory in which a program runs, with all that is in it. What lies outside is not part of the
tree: a path may lead there, but finds nothing but directories that cannot be written to.
-/
namespace Workbench.Files

inductive Entry
  | file (contents : List UInt8)
  | directory
  deriving DecidableEq, Repr

/-- The entries of the tree, each under the names that lead to it. -/
structure Tree where
  entries : List (List String × Entry)
  deriving DecidableEq, Repr

/-- Where a path has led. -/
inductive Spot
  | inside (names : List String)
  | outside
  deriving DecidableEq, Repr

namespace Tree

def maxNameLength : Nat := 255

def maxPathLength : Nat := 4095

def entry? (t : Tree) (names : List String) : Option Entry :=
  if names = [] then some .directory else t.entries.lookup names

def isDirectoryAt (t : Tree) : Spot → Bool
  | .inside names => t.entry? names == some .directory
  | .outside => true

/-- From a directory to what is called `name` there. -/
def step (t : Tree) (s : Spot) (name : String) : Except FileError Spot :=
  if !t.isDirectoryAt s then .error .notADirectory
  else if name = "." then .ok s
  else if maxNameLength < name.utf8ByteSize then .error .nameTooLong
  else
    match s with
    | .outside => if name = ".." then .ok .outside else .error .notFound
    | .inside names =>
      if name = ".." then .ok (if names = [] then .outside else .inside names.dropLast)
      else
        match t.entry? (names ++ [name]) with
        | some _ => .ok (.inside (names ++ [name]))
        | none => .error .notFound

/-- Where names lead that start at the root or in the tree. -/
def walk (t : Tree) (absolute : Bool) (names : List String) : Except FileError Spot :=
  names.foldlM t.step (if absolute then .outside else .inside [])

/-- A text that can be a path at all. -/
def pathOf (s : String) : Except FileError Path :=
  if s.toList.contains '\x00' then .error .nulByte
  else if maxPathLength < s.utf8ByteSize then .error .nameTooLong
  else if s = "" then .error .notFound
  else .ok (Path.parse s)

/-- Where a path leads. Behind a slash at its end there has to be a directory. -/
def locate (t : Tree) (p : Path) : Except FileError Spot := do
  let s ← t.walk p.absolute p.names
  if p.trailing ∧ ¬t.isDirectoryAt s then throw .notADirectory
  return s

def read (t : Tree) (path : String) : Except FileError (List UInt8) := do
  match ← t.locate (← pathOf path) with
  | .outside => throw .isADirectory
  | .inside names =>
    match t.entry? names with
    | some (.file contents) => return contents
    | _ => throw .isADirectory

/-- The directory that a new entry goes to and its name there, or what is there already. -/
inductive Place
  | free (names : List String)
  | taken (s : Spot)

/-- The place that the last of the names describes. -/
def placeFor (t : Tree) (p : Path) : Except FileError Place := do
  match p.names.getLast? with
  | none => return .taken .outside
  | some name =>
    let dir ← t.walk p.absolute p.names.dropLast
    match t.step dir name with
    | .ok s => return .taken s
    | .error .notFound =>
      match dir with
      | .inside names => return .free (names ++ [name])
      | .outside => throw .notFound
    | .error e => throw e

/-- The tree with an entry under these names. -/
def put (t : Tree) (names : List String) (e : Entry) : Tree :=
  ⟨if t.entries.any (·.1 == names) then
      t.entries.map fun (n, old) => if n = names then (n, e) else (n, old)
    else t.entries ++ [(names, e)]⟩

/-- Writes a file. A path that ends in a slash can only be meant for a directory, whatever its last
name is. -/
def write (t : Tree) (path : String) (contents : List UInt8) : Except FileError Tree := do
  let p ← pathOf path
  if p.trailing then
    let dir ← t.walk p.absolute p.names.dropLast
    throw (if t.isDirectoryAt dir then .isADirectory else .notADirectory)
  else
    match ← t.placeFor p with
    | .free names => return t.put names (.file contents)
    | .taken s =>
      match s with
      | .inside names =>
        if t.isDirectoryAt s then throw .isADirectory else return t.put names (.file contents)
      | .outside => throw .isADirectory

/-- Makes one directory. -/
def makeDirectory (t : Tree) (p : Path) : Except FileError Tree := do
  match ← t.placeFor p with
  | .free names => return t.put names .directory
  | .taken _ => throw .alreadyExists

def isDirectory (t : Tree) (p : Path) : Bool :=
  match t.locate p with
  | .ok s => t.isDirectoryAt s
  | .error _ => false

/-- Makes a directory; one that is there already will do. -/
def ensureDirectory (t : Tree) (p : Path) : Tree × Except FileError Unit :=
  match t.makeDirectory p with
  | .ok t => (t, .ok ())
  | .error e => if t.isDirectory p then (t, .ok ()) else (t, .error e)

/-- Makes a directory and, where that fails for want of it, the one above first. -/
def ensurePath (t : Tree) (p : Path) : Tree × Except FileError Unit :=
  if p.isEmpty then (t, .ok ())
  else
    match t.makeDirectory p with
    | .error .notFound =>
      match _h : p.parent? with
      | none => (t, .error .notFound)
      | some q =>
        match ensurePath t q with
        | (t, .ok ()) => t.ensureDirectory p
        | failed => failed
    | _ => t.ensureDirectory p
termination_by p.names.length
decreasing_by exact Path.parent?_length _h

def makeDirectories (t : Tree) (path : String) : Tree × Except FileError Unit :=
  if path = "" then (t, .ok ())
  else
    match pathOf path with
    | .error e => (t, .error e)
    | .ok p => t.ensurePath p

def doesExist (t : Tree) (path : String) : Bool :=
  match pathOf path with
  | .error _ => false
  | .ok p =>
    match t.locate p with
    | .ok _ => true
    | .error _ => false

/-- The files of the tree, each with its path. -/
def files (t : Tree) : List (String × List UInt8) :=
  t.entries.filterMap fun (names, e) =>
    match e with
    | .file contents => some ("/".intercalate names, contents)
    | .directory => none

/-- A tree that holds the given files and the directories they are in. -/
def ofFiles (files : List (String × List UInt8)) : Tree :=
  files.foldl
    (fun t (path, contents) =>
      let dirs := ((Path.parse path).parent?.map Path.text).getD ""
      let t := (t.makeDirectories dirs).1
      (t.write path contents).toOption.getD t)
    ⟨[]⟩

/-- Answers calls for files. -/
def peer : Dialogue.Peer Call Call.Reply Tree
  | .read path, t => (t.read path, t)
  | .write path contents, t =>
    match t.write path contents with
    | .ok t => (.ok (), t)
    | .error e => (.error e, t)
  | .makeDirectories path, t =>
    let (t, result) := t.makeDirectories path
    (result, t)
  | .doesExist path, t => (t.doesExist path, t)

end Tree

end Workbench.Files
