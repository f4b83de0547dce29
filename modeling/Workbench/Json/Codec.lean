import Workbench.Json.Value

/-!
# Codecs

A codec ties a type to JSON: how a value is written (`encode`), how it is read from a text
(`reader`, which knows the places of problems) and how it is read from a JSON value (`decode`).
A codec is lawful when both ways of reading undo `encode`; see `Workbench.Proofs`.

The codecs here are those of scalars and collections. Enumerations are in `Json.Codec.Choice`,
structures in `Json.Codec.Record`.
-/
namespace Workbench.Json

structure Codec (α : Type) where
  encode : α → Json
  decode : Json → Except Problem α
  /-- Reads a value in which at most the given number of arrays and objects are open at once. -/
  reader : Nat → Reader α

/-- The whole of a text as a value of the codec's type. -/
def Codec.parse {α : Type} (c : Codec α) (text : List UInt8) : Except Error α :=
  Reader.run (do let a ← c.reader maxNesting; atEnd; return a) text

def Codec.text {α : Type} (c : Codec α) (a : α) : String := compact (c.encode a)

def Codec.prettyText {α : Type} (c : Codec α) (a : α) : String := pretty (c.encode a)

/-- Stops at a value that is not of the expected kind. A scalar is read first, since it may itself
be faulty. -/
def mismatch {α : Type} (expected : String) : Reader α := do
  match ← head with
  | .null => nullWord; Reader.stop (.wrongType .null expected)
  | .true => trueWord; Reader.stop (.wrongType (.bool true) expected)
  | .false => falseWord; Reader.stop (.wrongType (.bool false) expected)
  | .minus => let n ← number .minus; Reader.stop (.wrongType (.number n) expected)
  | .digit => let n ← number .digit; Reader.stop (.wrongType (.number n) expected)
  | .quote => let s ← string; Reader.stop (.wrongType (.string s) expected)
  | .bracket => Reader.stop (.wrongType .sequence expected)
  | .brace => Reader.stop (.wrongType .map expected)
  | .other => Reader.stopPast (.fault .noValue)

namespace Codec

/-! ## Scalars -/

/-- Any value as it is. -/
def any : Codec Json where
  encode v := v
  decode v := .ok v
  reader := value

def string : Codec String where
  encode s := .str s
  decode
    | .str s => .ok s
    | v => .error (.wrongType (found v) "a string")
  reader _ := do
    match ← head with
    | .quote => Json.string
    | _ => mismatch "a string"

def bool : Codec Bool where
  encode b := .bool b
  decode
    | .bool b => .ok b
    | v => .error (.wrongType (found v) "a boolean")
  reader _ := do
    match ← head with
    | .true => trueWord; return true
    | .false => falseWord; return false
    | _ => mismatch "a boolean"

/-- A number as an integer between `lo` and `hi`. -/
def within (name : String) (lo hi : Int) : Number → Except Problem Int
  | .int n =>
    if lo ≤ n ∧ n ≤ hi then .ok n else .error (.wrongValue (.number (.int n)) name)
  | .float x => .error (.wrongType (.number (.float x)) name)

/-- The integers of one width: `ofInt` is asked for those between `lo` and `hi` only. -/
def integer {α : Type} (name : String) (lo hi : Int) (toInt : α → Int) (ofInt : Int → α) :
    Codec α where
  encode a := .num (.int (toInt a))
  decode
    | .num n => (within name lo hi n).map ofInt
    | v => .error (.wrongType (found v) name)
  reader _ := do
    let h ← head
    if h = .minus ∨ h = .digit then
      match within name lo hi (← number h) with
      | .ok n => return ofInt n
      | .error p => Reader.stop p
    else mismatch name

def int64 : Codec Int64 := integer "i64" (-0x8000000000000000) 0x7FFFFFFFFFFFFFFF Int64.toInt Int64.ofInt

def uint64 : Codec UInt64 :=
  integer "u64" 0 0xFFFFFFFFFFFFFFFF (fun n => n.toNat) fun n => UInt64.ofNat n.toNat

def int32 : Codec Int32 := integer "i32" (-0x80000000) 0x7FFFFFFF Int32.toInt Int32.ofInt

/-! ## Collections -/

/-- `null` for nothing. -/
def option {α : Type} (c : Codec α) : Codec (Option α) where
  encode
    | none => .null
    | some a => c.encode a
  decode
    | .null => .ok none
    | v => (c.decode v).map some
  reader nesting := do
    match ← peek with
    | some 0x6E => nullWord; return none
    | _ => return some (← c.reader nesting)

def list {α : Type} (c : Codec α) : Codec (List α) where
  encode as := .arr (as.map c.encode)
  decode
    | .arr vs => vs.mapM c.decode
    | v => .error (.wrongType (found v) "a sequence")
  reader nesting := do
    match ← head with
    | .bracket => nested endOfList (fun n => items (c.reader n)) nesting
    | _ => mismatch "a sequence"

/-- A member of an object whose values are of one type. -/
def entry {α : Type} (item : Reader α) (acc : List (String × α)) (name : String) :
    Reader (List (String × α)) := do
  colon
  return insert name (← item) acc

/-- An association list, sorted by name. -/
def dictionary {α : Type} (c : Codec α) : Codec (List (String × α)) where
  encode as := .obj (as.map fun (n, a) => (n, c.encode a))
  decode
    | .obj vs => vs.foldlM (fun acc (n, v) => do return insert n (← c.decode v) acc) []
    | v => .error (.wrongType (found v) "a map")
  reader nesting := do
    match ← head with
    | .brace => nested endOfObject (fun n => members (entry (c.reader n)) []) nesting
    | _ => mismatch "a map"

/-- A value of any kind, of which `ofJson` takes what it can. -/
def lenient {α : Type} (encode : α → Json) (ofJson : Json → α) : Codec α where
  encode := encode
  decode v := .ok (ofJson v)
  reader nesting := do return ofJson (← value nesting)

end Codec

end Workbench.Json
