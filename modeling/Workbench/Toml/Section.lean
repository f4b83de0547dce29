import Workbench.Toml.Basic

/-!
# The tables of a TOML document

While a document is read, its tables remember how they came to be, since that decides what may
still be added: a table is opened by at most one header, dotted keys extend only what dotted keys
have made, and a value that has been written is closed.
-/
namespace Workbench.Toml

/-- How a table came to be. -/
inductive Origin
  /-- On the way to a table that a header names. -/
  | implied
  | headed
  | dotted
  deriving DecidableEq, Repr

inductive Node
  | value (v : Toml)
  | section_ (origin : Origin) (entries : List (String × Node))
  /-- An array of tables, of which the last is open. -/
  | series (before : List (List (String × Node))) (last : List (String × Node))

abbrev Entries := List (String × Node)

namespace Entries

/-- Entries with `node` under `key`, in its place if there is one. -/
def set (key : String) (node : Node) : Entries → Entries
  | [] => [(key, node)]
  | (k, n) :: rest => if k = key then (k, node) :: rest else (k, n) :: set key node rest

/-- Changes the table that the keys of a header lead to. -/
def within (change : Entries → Option Entries) : List String → Entries → Option Entries
  | [], es => change es
  | k :: path, es => do
    match es.lookup k with
    | none => return es.set k (.section_ .implied (← within change path []))
    | some (.section_ origin inner) => return es.set k (.section_ origin (← within change path inner))
    | some (.series before last) => return es.set k (.series before (← within change path last))
    | some (.value _) => none

/-- Opens the table `key`. -/
def openTable (key : String) (es : Entries) : Option Entries :=
  match es.lookup key with
  | none => some (es.set key (.section_ .headed []))
  | some (.section_ .implied inner) => some (es.set key (.section_ .headed inner))
  | _ => none

/-- Opens one more table of the array `key`. -/
def openItem (key : String) (es : Entries) : Option Entries :=
  match es.lookup key with
  | none => some (es.set key (.series [] []))
  | some (.series before last) => some (es.set key (.series (before ++ [last]) []))
  | _ => none

/-- Adds a value under a key, which may be dotted. -/
def add (v : Toml) : List String → Entries → Option Entries
  | [], _ => none
  | [k], es => if (es.lookup k).isSome then none else some (es.set k (.value v))
  | k :: path, es => do
    match es.lookup k with
    | none => return es.set k (.section_ .dotted (← add v path []))
    | some (.section_ .dotted inner) => return es.set k (.section_ .dotted (← add v path inner))
    | some (.section_ .implied inner) =>
      if path.length > 1 then return es.set k (.section_ .implied (← add v path inner)) else none
    | _ => none

end Entries

mutual

def Node.toToml : Node → Toml
  | .value v => v
  | .section_ _ es => .table (entriesToToml es)
  | .series before last => .array (itemsToToml before ++ [.table (entriesToToml last)])

def entriesToToml : List (String × Node) → List (String × Toml)
  | [] => []
  | (k, n) :: rest => (k, n.toToml) :: entriesToToml rest

def itemsToToml : List (List (String × Node)) → List Toml
  | [] => []
  | es :: rest => .table (entriesToToml es) :: itemsToToml rest

end

end Workbench.Toml
