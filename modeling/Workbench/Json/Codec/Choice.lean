import Workbench.Json.Codec

/-!
# Codecs of enumerations

A plain variant is written as its name and may also be read from an object with its name as the
only member and `null` under it. A variant that carries a text is written as such an object.
-/
namespace Workbench.Json

/-- One variant of the type `α`. -/
inductive Variant (α : Type)
  | plain (name : String) (value : α)
  | text (name : String) (make : String → α)

def Variant.name {α : Type} : Variant α → String
  | .plain n _ => n
  | .text n _ => n

/-- The variants of a type and, for unknown names, the one that stands for all others. -/
structure Choice (α : Type) where
  variants : List (Variant α)
  other : Option α
  encode : α → Json

namespace Choice

variable {α : Type}

def lookup (c : Choice α) (name : String) : Except Problem (Variant α) :=
  match c.variants.find? (·.name == name) with
  | some v => .ok v
  | none =>
    match c.other with
    | some a => .ok (.plain name a)
    | none => .error (.unknownVariant name (c.variants.map Variant.name))

/-- What a plain variant has under its name. -/
def unitReader : Reader Unit := do
  match ← head with
  | .null => nullWord
  | _ => mismatch "unit"

/-- The name of a variant as a text. -/
def nameReader (c : Choice α) : Reader (Variant α) := do
  match ← head with
  | .quote =>
    match c.lookup (← Json.string) with
    | .ok v => return v
    | .error p => Reader.stop p
  | _ => mismatch "variant identifier"

/-- The object form, from its brace on. -/
def objectReader (c : Choice α) : Reader α := do
  advance
  let v ← c.nameReader
  colon
  let a ←
    match v with
    | .plain _ a => do unitReader; pure a
    | .text _ make => do pure (make (← Codec.string.reader 0))
  match ← peek with
  | some 0x7D => advance; return a
  | some _ => Reader.stop (.fault .noValue)
  | none => Reader.stop (.fault .endInObject)

def bareVariant : Found := .unitVariant

def reader (c : Choice α) (nesting : Nat) : Reader α := do
  match ← peek with
  | none => Reader.stopPast (.fault .endInValue)
  | some b =>
    match Head.of b with
    | .brace =>
      if nesting = 0 then Reader.stopPast (.fault .tooDeep) else c.objectReader
    | .quote =>
      match ← c.nameReader with
      | .plain _ a => return a
      | .text _ _ => Reader.reject (.wrongType bareVariant "newtype variant")
    | _ => Reader.stopPast (.fault .noValue)

/-- A variant with what was found under its name. -/
def variantOf (c : Choice α) (name : String) (payload : Option Json) : Except Problem α := do
  match ← c.lookup name, payload with
  | .plain _ a, none => return a
  | .plain _ a, some .null => return a
  | .plain _ _, some v => throw (.wrongType (found v) "unit")
  | .text _ _, none => throw (.wrongType bareVariant "newtype variant")
  | .text _ make, some v => return make (← Codec.string.decode v)

def decode (c : Choice α) : Json → Except Problem α
  | .str name => c.variantOf name none
  | .obj [(name, v)] => c.variantOf name (some v)
  | .obj _ => .error (.wrongValue .map "map with a single key")
  | v => .error (.wrongType (found v) "string or map")

def codec (c : Choice α) : Codec α := ⟨c.encode, c.decode, c.reader⟩

/-- A type all of whose variants are plain. -/
def ofNames (all : List α) (name : α → String) (other : Option α) : Choice α :=
  ⟨all.map fun a => .plain (name a) a, other, fun a => .str (name a)⟩

end Choice

end Workbench.Json
