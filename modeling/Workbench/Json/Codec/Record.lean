import Workbench.Json.Codec

/-!
# Codecs of structures

A structure is written as an object with its fields in declared order. It is read from an object
with the fields in any order, other members being passed over, or from an array of the fields in
declared order. A field may be absent where it says so.

The fields of a structure are a list of types with a `Field` for each; `Row` has a value for each
field and `Slots` has one for those that have been seen.
-/
namespace Workbench.Json

/-- What an absent field means. -/
inductive Absent (α : Type)
  | required
  /-- Stands for `value` in an object, but is required in an array. -/
  | inObject (value : α)
  | default (value : α)

structure Field (α : Type) where
  name : String
  codec : Codec α
  absent : Absent α
  /-- The values that are not written at all. -/
  hidden : α → Bool

namespace Field

def required {α : Type} (name : String) (codec : Codec α) : Field α :=
  ⟨name, codec, .required, fun _ => false⟩

def default {α : Type} (name : String) (codec : Codec α) (value : α) : Field α :=
  ⟨name, codec, .default value, fun _ => false⟩

/-- Absent for nothing. -/
def optional {α : Type} (name : String) (codec : Codec α) : Field (Option α) :=
  ⟨name, codec.option, .default none, fun _ => false⟩

/-- Absent for nothing in an object, and written as `null`. -/
def nullable {α : Type} (name : String) (codec : Codec α) : Field (Option α) :=
  ⟨name, codec.option, .inObject none, fun _ => false⟩

/-- Absent for nothing, also when written. -/
def unwritten {α : Type} (name : String) (codec : Codec α) : Field (Option α) :=
  ⟨name, codec.option, .default none, Option.isNone⟩

end Field

inductive Fields : List Type → Type 1
  | nil : Fields []
  | cons {α : Type} {ts : List Type} (field : Field α) (rest : Fields ts) : Fields (α :: ts)

/-- A value for each field. -/
def Row : List Type → Type
  | [] => Unit
  | α :: ts => α × Row ts

/-- A value for each field that has been seen. -/
def Slots : List Type → Type
  | [] => Unit
  | α :: ts => Option α × Slots ts

namespace Fields

def count {ts : List Type} (_ : Fields ts) : Nat := ts.length

def encode : {ts : List Type} → Fields ts → Row ts → List (String × Json)
  | _, .nil, _ => []
  | _, .cons f rest, (a, row) =>
    if f.hidden a then rest.encode row else (f.name, f.codec.encode a) :: rest.encode row

def empty : {ts : List Type} → Fields ts → Slots ts
  | _, .nil => ()
  | _, .cons _ rest => (none, rest.empty)

/-- All fields, those that were not seen as far as they may be absent. -/
def complete : {ts : List Type} → Fields ts → Slots ts → Except Problem (Row ts)
  | _, .nil, _ => .ok ()
  | _, .cons f rest, (slot, slots) => do
    let a ←
      match slot, f.absent with
      | some a, _ => pure a
      | none, .required => throw (.missingField f.name)
      | none, .inObject a => pure a
      | none, .default a => pure a
    return (a, ← rest.complete slots)

/-! ## From values -/

/-- Takes a member of an object. -/
def take : {ts : List Type} → Fields ts → Slots ts → String → Json → Except Problem (Slots ts)
  | _, .nil, slots, _, _ => .ok slots
  | _, .cons f rest, (slot, slots), name, v =>
    if name = f.name then
      match slot with
      | some _ => throw (.duplicateField f.name)
      | none => do return (some (← f.codec.decode v), slots)
    else do return (slot, ← rest.take slots name v)

/-- The fields from the items of an array, of which `seen` have been taken already. -/
def ofItems (expected : String) : {ts : List Type} → Fields ts → Nat → List Json →
    Except Problem (Row ts × List Json)
  | _, .nil, _, vs => .ok ((), vs)
  | _, .cons f rest, seen, v :: vs => do
    let a ← f.codec.decode v
    let (row, vs) ← rest.ofItems expected (seen + 1) vs
    return ((a, row), vs)
  | _, .cons f rest, seen, [] => do
    let a ←
      match f.absent with
      | .default a => pure a
      | _ => throw (.wrongLength seen expected)
    let (row, vs) ← rest.ofItems expected (seen + 1) []
    return ((a, row), vs)

/-! ## From texts -/

/-- Reads what follows the name of a member. -/
def readMember (nesting : Nat) : {ts : List Type} → Fields ts → Slots ts → String →
    Reader (Slots ts)
  | _, .nil, slots, _ => do
    colon
    skip
    return slots
  | _, .cons f rest, (slot, slots), name =>
    if name = f.name then
      match slot with
      | some _ => Reader.reject (.duplicateField f.name)
      | none => do
        colon
        let a ← f.codec.reader nesting
        return (some a, slots)
    else do return (slot, ← rest.readMember nesting slots name)

def readObject {ts : List Type} (fields : Fields ts) (nesting : Nat) : Reader (Row ts) := do
  let slots ← members (fields.readMember nesting) fields.empty
  match fields.complete slots with
  | .ok row => return row
  | .error p => Reader.reject p

def readItems (expected : String) (nesting : Nat) : {ts : List Type} → Fields ts → Bool → Nat →
    Reader (Row ts)
  | _, .nil, _, _ => return ()
  | _, .cons f rest, first, seen => do
    if ← moreItems first then
      let a ← f.codec.reader nesting
      return (a, ← rest.readItems expected nesting false (seen + 1))
    else
      match f.absent with
      | .default a => return (a, ← rest.readItems expected nesting first (seen + 1))
      | _ => Reader.reject (.wrongLength seen expected)

end Fields

/-- How messages name a structure together with its size. -/
def sized (name : String) (n : Nat) : String :=
  if n = 1 then s!"struct {name} with 1 element" else s!"struct {name} with {n} elements"

/-- The codec of a structure with these fields. -/
def Codec.record {σ : Type} {ts : List Type} (name : String) (fields : Fields ts)
    (toRow : σ → Row ts) (ofRow : Row ts → σ) : Codec σ where
  encode a := .obj (fields.encode (toRow a))
  decode
    | .obj vs => do
      let slots ← vs.foldlM (fun slots (n, v) => fields.take slots n v) fields.empty
      return ofRow (← fields.complete slots)
    | .arr vs => do
      let (row, rest) ← fields.ofItems (sized name fields.count) 0 vs
      if rest = [] then return ofRow row
      else throw (.wrongLength vs.length "fewer elements in array")
    | v => .error (.wrongType (found v) s!"struct {name}")
  reader nesting := do
    match ← head with
    | .brace => return ofRow (← nested endOfObject fields.readObject nesting)
    | .bracket =>
      return ofRow (← nested endOfList
        (fun n => fields.readItems (sized name fields.count) n true 0) nesting)
    | _ => mismatch s!"struct {name}"

end Workbench.Json
