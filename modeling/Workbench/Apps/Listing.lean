import Workbench.Apps.Basic

/-!
# Reading lists of apps

A list of apps comes as a file, which has to bear the mark of the format, or as a pasted text, which
may also be a bare array. Entries are taken as loosely as possible: without a name an app is called
by its id, and without a kind its id suggests one. Entries with a blank id and repeated ids are
dropped; a single entry of the wrong shape refuses the whole list.
-/
namespace Workbench

open Json (Codec Field Fields)

/-- Why a text is no list of apps. -/
inductive ListingError
  | json (error : Json.Error)
  | notAnObject
  | notAList
  | noMark
  | wrongMark (found : String)
  | noApps
  deriving DecidableEq, Repr

def ListingError.message : ListingError → String
  | .json e => e.message
  | .notAnObject => "expected a JSON object"
  | .notAList => "expected an array or an object with 'apps'"
  | .noMark => s!"missing type '{AppList.formatMark}'"
  | .wrongMark found => s!"expected type '{AppList.formatMark}', found '{found}'"
  | .noApps => "missing 'apps' array"

/-- One entry of a list, as far as it says anything. -/
structure AppEntry where
  id : String
  name : Option String
  description : Option String
  kind : Option AppKind
  endpoint : Option String
  deriving DecidableEq, Repr

namespace AppEntry

def codec : Codec AppEntry :=
  .record "AppEntry"
    (.cons (.default "id" .string "") <| .cons (.optional "name" .string) <|
     .cons (.optional "description" .string) <| .cons (.optional "type" AppKind.codec) <|
     .cons (.optional "endpoint" .string) .nil)
    (fun e => (e.id, e.name, e.description, e.kind, e.endpoint, ()))
    fun (id, name, desc, kind, endpoint, ()) => ⟨id, name, desc, kind, endpoint⟩

def toApp (e : AppEntry) : App where
  id := e.id
  name := (e.name.filter (! Text.isBlankText ·)).getD e.id
  description := e.description.getD ""
  kind := e.kind.getD (AppKind.ofKey e.id)
  endpoint := e.endpoint

/-- The apps of the entries, each id once. -/
def collect (entries : List AppEntry) : List App :=
  entries.foldl
    (fun apps e =>
      if Text.isBlankText e.id ∨ apps.any (·.id == e.id) then apps else apps ++ [e.toApp])
    []

end AppEntry

namespace AppList

/-- The apps that a value lists. -/
def ofEntries (v : Json) : Except ListingError (List App) :=
  match AppEntry.codec.list.decode v with
  | .ok entries => .ok (AppEntry.collect entries)
  | .error p => .error (.json ⟨p, none⟩)

/-- The mark of an object, if it has one that is a text. -/
def mark? (v : Json) : Option String := (v.get? "type").bind Json.str?

/-- The apps of an object whose mark has been checked. -/
def ofMarked (v : Json) : Except ListingError (List App) :=
  match v.get? "apps" with
  | some apps => ofEntries apps
  | none => .error .noApps

/-- The apps of a value that has to bear the mark. -/
def ofFile (v : Json) : Except ListingError (List App) :=
  match v with
  | .obj _ =>
    match mark? v with
    | none => .error .noMark
    | some mark => if mark = formatMark then ofMarked v else .error (.wrongMark mark)
  | _ => .error .notAnObject

/-- The apps of a value that may bear the mark. -/
def ofPasted (v : Json) : Except ListingError (List App) :=
  match v with
  | .arr _ => ofEntries v
  | .obj _ =>
    match mark? v with
    | none => ofMarked v
    | some mark => if mark = formatMark then ofMarked v else .error (.wrongMark mark)
  | _ => .error .notAList

def parseFile (contents : List UInt8) : Except ListingError (List App) :=
  match Json.read contents with
  | .ok v => ofFile v
  | .error e => .error (.json e)

def parseText (text : String) : Except ListingError (List App) :=
  match Json.read (Text.bytes (Text.trim text)) with
  | .ok v => ofPasted v
  | .error e => .error (.json e)

end AppList

end Workbench
