import Workbench.Json.Basic

/-!
# TOML values

A document is a table. Dates and times are kept as their text, and of floats only the finite ones
have a value.
-/
namespace Workbench

inductive Toml
  | string (value : String)
  | integer (value : Int)
  | float (value : Option Binary64)
  | boolean (value : Bool)
  | datetime (text : String)
  | array (items : List Toml)
  | table (entries : List (String × Toml))
  deriving Repr

namespace Toml

/-- The name under which a date or time appears in JSON. -/
def datetimeKey : String := "$datetime"

mutual

/-- The value in the terms of JSON, where a float that is not finite becomes zero. -/
def toJson : Toml → Json
  | .string s => .str s
  | .integer n => .num (.int n)
  | .float x => .num (.float (x.getD (.zero false)))
  | .boolean b => .bool b
  | .datetime t => .obj [(datetimeKey, .str t)]
  | .array items => .arr (itemsToJson items)
  | .table entries => .obj (entriesToJson entries)

def itemsToJson : List Toml → List Json
  | [] => []
  | v :: rest => toJson v :: itemsToJson rest

def entriesToJson : List (String × Toml) → List (String × Json)
  | [] => []
  | (k, v) :: rest => (k, toJson v) :: entriesToJson rest

end

mutual

/-- A JSON value in the terms of TOML, which has no null. -/
def ofJson? : Json → Option Toml
  | .null => none
  | .bool b => some (.boolean b)
  | .num (.int n) => some (.integer n)
  | .num (.float x) => some (.float (some x))
  | .str s => some (.string s)
  | .arr items => some (.array (ofItems items))
  | .obj members => some (.table (ofMembers members))

def ofItems : List Json → List Toml
  | [] => []
  | v :: rest => (ofJson? v).toList ++ ofItems rest

/-- The entries of an object, those with null left out. -/
def ofMembers : List (String × Json) → List (String × Toml)
  | [] => []
  | (k, v) :: rest => (ofJson? v).toList.map (fun v => (k, v)) ++ ofMembers rest

end

end Toml

end Workbench
