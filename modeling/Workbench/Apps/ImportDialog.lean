import Workbench.Apps.Page

/-!
# The import dialog

Three channels fill the list of a dialog: a scan of a host, a file, and a pasted text. Each replaces
the list and clears the choice. Committing hands the chosen apps over in the order of the list and
leaves an empty dialog.
-/
namespace Workbench

/-- The channel that filled the list. -/
inductive ImportSource
  | url
  | file
  | text
  deriving DecidableEq, Repr

structure ImportDialog where
  scanned : List App
  selected : List String
  source : Option ImportSource
  deriving DecidableEq, Repr

namespace ImportDialog

def empty : ImportDialog := ⟨[], [], none⟩

/-- The dialog with a new list; the result is the list. -/
def load (d : ImportDialog) (source : ImportSource) (list : Except AppsError (List App)) :
    ImportDialog × Except AppsError (List App) :=
  match list with
  | .ok apps => (⟨apps, [], some source⟩, .ok apps)
  | .error e => (d, .error e)

def scanUrl (d : ImportDialog) (scanner : Scanner) (c : Connection) :
    Talk (ImportDialog × Except AppsError (List App)) := do
  match c.validate with
  | .error e => return (d, .error e)
  | .ok () => return d.load .url (.ok (← scanner c))

def loadFile (d : ImportDialog) (contents : List UInt8) :
    ImportDialog × Except AppsError (List App) :=
  d.load .file ((AppList.parseFile contents).mapError .invalidList)

def loadText (d : ImportDialog) (text : String) : ImportDialog × Except AppsError (List App) :=
  d.load .text ((AppList.parseText text).mapError .invalidList)

/-- Chooses an app or not; the result says whether it is chosen now. -/
def toggle (d : ImportDialog) (id : String) : ImportDialog × Except AppsError Bool :=
  if d.scanned.any (·.id == id) then
    ({ d with selected := toggleId id d.selected }, .ok (!d.selected.contains id))
  else (d, .error (.unknownApp id))

def selectAll (d : ImportDialog) : ImportDialog := { d with selected := d.scanned.map (·.id) }

def clearSelection (d : ImportDialog) : ImportDialog := { d with selected := [] }

/-- The chosen apps in the order of the list. -/
def chosen (d : ImportDialog) : List App := d.scanned.filter fun app => d.selected.contains app.id

/-- Hands the chosen apps over. -/
def commit (d : ImportDialog) : ImportDialog × Except AppsError (List App) :=
  if d.chosen.isEmpty then (d, .error .emptySelection) else (empty, .ok d.chosen)

/-- Hands the chosen apps over to `receive`; the result says how many they are. -/
def commitTo (d : ImportDialog) (receive : List App → Talk Unit) :
    Talk (ImportDialog × Except AppsError Nat) := do
  match d.commit with
  | (d, .error e) => return (d, .error e)
  | (d, .ok apps) =>
    receive apps
    return (d, .ok apps.length)

end ImportDialog

end Workbench
