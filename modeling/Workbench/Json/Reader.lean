import Workbench.Json.Problem

/-!
# Readers of JSON text

A reader consumes bytes from the front of a text. When it stops without a result it says why, and
either which bytes were left at the place of the problem (`placed`) or only where it stopped
(`loose`): a problem that shows after a value has been read gets its place from the array or
object around it, once that has been closed as far as possible.

This module has the tokens; `Json.Value` and `Json.Codec` have the values.
-/
namespace Workbench.Json

inductive Stop
  | placed (problem : Problem) (left : Nat)
  | loose (problem : Problem) (rest : List UInt8)
  deriving DecidableEq, Repr

/-- From the bytes of a text to a result and the bytes behind it. -/
abbrev Reader (α : Type) := StateT (List UInt8) (Except Stop) α

/-- The place in `text` with `left` bytes behind it. -/
def placeAt (text : List UInt8) (left : Nat) : Place :=
  let before := text.take (text.length - left)
  ⟨1 + before.count 10, (before.reverse.takeWhile (· != 10)).length⟩

namespace Reader

variable {α : Type}

/-- Stops at the next byte. -/
def stop (p : Problem) : Reader α := fun s => .error (.placed p s.length)

/-- Stops behind the next byte, or at the end if there is none. -/
def stopPast (p : Problem) : Reader α := fun s => .error (.placed p (s.length - 1))

/-- Stops with a problem whose place depends on what is around. -/
def reject (p : Problem) : Reader α := fun s => .error (.loose p s)

/-- Gives a loose problem of `r` its place: where `r` stopped. -/
def settle (r : Reader α) : Reader α := fun s =>
  match r s with
  | .error (.loose p rest) => .error (.placed p rest.length)
  | result => result

/-- All of `text` as `r` and `atEnd` read it. -/
def run (r : Reader α) (text : List UInt8) : Except Error α :=
  match r text with
  | .ok (a, _) => .ok a
  | .error (.placed p left) => .error ⟨p, some (placeAt text left)⟩
  | .error (.loose p _) => .error ⟨p, none⟩

end Reader

open Reader

/-! ## Blanks and single bytes -/

def isGap (b : UInt8) : Bool := b == 0x20 || b == 0x0A || b == 0x09 || b == 0x0D

def skipGaps (s : List UInt8) : List UInt8 := s.dropWhile isGap

def isDigit (b : UInt8) : Bool := 0x30 ≤ b && b ≤ 0x39

def digitValue (b : UInt8) : Nat := b.toNat - 0x30

/-- What the first byte of a value announces. -/
inductive Head
  | null
  | true
  | false
  | minus
  | digit
  | quote
  | bracket
  | brace
  | other
  deriving DecidableEq

def Head.of (b : UInt8) : Head :=
  if b = 0x22 then .quote
  else if b = 0x7B then .brace
  else if b = 0x5B then .bracket
  else if isDigit b then .digit
  else if b = 0x2D then .minus
  else if b = 0x6E then .null
  else if b = 0x74 then .true
  else if b = 0x66 then .false
  else .other

/-- Skips blanks and looks at the next byte. -/
def peek : Reader (Option UInt8) := fun s =>
  let s := skipGaps s
  .ok (s.head?, s)

/-- Skips blanks and looks at the head of the value that must follow. -/
def head : Reader Head := do
  match ← peek with
  | none => stopPast (.fault .endInValue)
  | some b => return Head.of b

/-- Passes over one byte. -/
def advance : Reader Unit := fun s => .ok ((), s.tail)

/-- The given bytes, the rest of a word whose first byte has been seen. -/
def word : List UInt8 → Reader Unit
  | [] => pure ()
  | b :: bs => fun s =>
    match s with
    | [] => .error (.placed (.fault .endInValue) 0)
    | c :: rest => if c = b then word bs rest else .error (.placed (.fault .noIdent) rest.length)

def nullWord : Reader Unit := do advance; word [0x75, 0x6C, 0x6C]

def trueWord : Reader Unit := do advance; word [0x72, 0x75, 0x65]

def falseWord : Reader Unit := do advance; word [0x61, 0x6C, 0x73, 0x65]

/-- The colon between a name and its value. -/
def colon : Reader Unit := do
  match ← peek with
  | some 0x3A => advance
  | some _ => stopPast (.fault .noColon)
  | none => stopPast (.fault .endInObject)

/-- Nothing but blanks up to the end of the text. -/
def atEnd : Reader Unit := do
  match ← peek with
  | none => return ()
  | some _ => stopPast (.fault .trailingCharacters)

/-! ## Texts -/

def hexValue (b : UInt8) : Option Nat :=
  if 0x30 ≤ b && b ≤ 0x39 then some (b.toNat - 0x30)
  else if 0x41 ≤ b && b ≤ 0x46 then some (b.toNat - 0x37)
  else if 0x61 ≤ b && b ≤ 0x66 then some (b.toNat - 0x57)
  else none

/-- The byte that a one-letter escape stands for. -/
def shortEscape (b : UInt8) : Option UInt8 :=
  if b = 0x22 then some 0x22
  else if b = 0x5C then some 0x5C
  else if b = 0x2F then some 0x2F
  else if b = 0x62 then some 0x08
  else if b = 0x66 then some 0x0C
  else if b = 0x6E then some 0x0A
  else if b = 0x72 then some 0x0D
  else if b = 0x74 then some 0x09
  else none

def isLead (n : Nat) : Bool := 0xD800 ≤ n && n ≤ 0xDBFF

def isTrail (n : Nat) : Bool := 0xDC00 ≤ n && n ≤ 0xDFFF

/-- Where the reading of a text stands within an escape. -/
inductive Escape
  | none
  | backslash
  /-- Digits still due, the value so far unless one was no digit, and the surrogate before. -/
  | hex (due : Nat) (value : Option Nat) (lead : Option Nat)
  /-- After a leading surrogate: the backslash and then the letter of its partner are due. -/
  | pair (lead : Nat) (backslash : Bool)

def utf8 (n : Nat) : List UInt8 := String.utf8EncodeChar (Char.ofNat n)

/-- The bytes of the rest of a text up to its closing quote, where `acc` has the bytes so far, the
last one first. -/
def stringRest (acc : List UInt8) : Escape → Reader (List UInt8)
  | _, [] => .error (.placed (.fault .endInString) 0)
  | .none, b :: rest =>
    if b = 0x22 then .ok (acc.reverse, rest)
    else if b = 0x5C then stringRest acc .backslash rest
    else if b < 0x20 then .error (.placed (.fault .controlCharacter) rest.length)
    else stringRest (b :: acc) .none rest
  | .backslash, b :: rest =>
    if b = 0x75 then stringRest acc (.hex 4 (some 0) none) rest
    else
      match shortEscape b with
      | some c => stringRest (c :: acc) .none rest
      | none => .error (.placed (.fault .badEscape) rest.length)
  | .hex due value lead, b :: rest =>
    let value := do return (← value) * 16 + (← hexValue b)
    if due ≤ 1 then
      match value, lead with
      | none, _ => .error (.placed (.fault .badEscape) rest.length)
      | some n, none =>
        if isTrail n then .error (.placed (.fault .loneSurrogate) rest.length)
        else if isLead n then stringRest acc (.pair n false) rest
        else stringRest ((utf8 n).reverse ++ acc) .none rest
      | some n, some m =>
        if isTrail n then
          stringRest ((utf8 ((m - 0xD800) * 1024 + (n - 0xDC00) + 0x10000)).reverse ++ acc)
            .none rest
        else .error (.placed (.fault .loneSurrogate) rest.length)
    else stringRest acc (.hex (due - 1) value lead) rest
  | .pair lead false, b :: rest =>
    if b = 0x5C then stringRest acc (.pair lead true) rest
    else .error (.placed (.fault .endOfHexEscape) rest.length)
  | .pair lead true, b :: rest =>
    if b = 0x75 then stringRest acc (.hex 4 (some 0) (some lead)) rest
    else .error (.placed (.fault .endOfHexEscape) rest.length)

/-- Stops behind the byte at which a text ceases to be well-formed. -/
def illFormed (s : List UInt8) : Reader String := fun _ =>
  .error (.placed (.fault .badCodePoint) (s.length - Text.wellFormedLength s - 1))

/-- A text, from its opening quote on. -/
def string : Reader String := do
  advance
  let start ← get
  match Text.ofBytes? (← stringRest [] .none) with
  | some s => return s
  | none => illFormed start

/-- Passes over the rest of a text. What its escapes stand for does not matter. -/
def skipStringRest : Escape → Reader Unit
  | _, [] => .error (.placed (.fault .endInString) 0)
  | .none, b :: rest =>
    if b = 0x22 then .ok ((), rest)
    else if b = 0x5C then skipStringRest .backslash rest
    else if b < 0x20 then .error (.placed (.fault .controlCharacter) (rest.length + 1))
    else skipStringRest .none rest
  | .backslash, b :: rest =>
    if b = 0x75 then skipStringRest (.hex 4 (some 0) none) rest
    else if (shortEscape b).isSome then skipStringRest .none rest
    else .error (.placed (.fault .badEscape) rest.length)
  | .hex due value lead, b :: rest =>
    let value := do return (← value) * 16 + (← hexValue b)
    if due ≤ 1 then
      if value.isSome then skipStringRest .none rest
      else .error (.placed (.fault .badEscape) rest.length)
    else skipStringRest (.hex (due - 1) value lead) rest
  | .pair _ _, _ :: rest => skipStringRest .none rest

def skipString : Reader Unit := do advance; skipStringRest .none

/-! ## Arrays and objects -/

/-- Another item follows, or the array ends here. -/
def moreItems (first : Bool) : Reader Bool := do
  match ← peek with
  | none => stopPast (.fault .endInList)
  | some 0x5D => return false
  | some b =>
    if first then return true
    else if b = 0x2C then
      advance
      match ← peek with
      | some 0x5D => stopPast (.fault .trailingComma)
      | some _ => return true
      | none => stopPast (.fault .endInValue)
    else stopPast (.fault .noListCommaOrEnd)

/-- Another member follows, or the object ends here. -/
def moreMembers (first : Bool) : Reader Bool := do
  match ← peek with
  | none => stopPast (.fault .endInObject)
  | some 0x7D => return false
  | some b =>
    if first then
      if b = 0x22 then return true else stopPast (.fault .keyNotString)
    else if b = 0x2C then
      advance
      match ← peek with
      | some 0x22 => return true
      | some 0x7D => stopPast (.fault .trailingComma)
      | some _ => stopPast (.fault .keyNotString)
      | none => stopPast (.fault .endInValue)
    else stopPast (.fault .noObjectCommaOrEnd)

/-- The end of an array, or why this is none and where that showed. -/
def endOfList (s : List UInt8) : Option Fault × List UInt8 :=
  match skipGaps s with
  | [] => (some .endInList, [])
  | b :: rest =>
    if b = 0x5D then (none, rest)
    else if b = 0x2C then
      let rest := skipGaps rest
      (some (if rest.head? = some 0x5D then .trailingComma else .trailingCharacters), rest)
    else (some .trailingCharacters, b :: rest)

def endOfObject (s : List UInt8) : Option Fault × List UInt8 :=
  match skipGaps s with
  | [] => (some .endInObject, [])
  | b :: rest =>
    if b = 0x7D then (none, rest)
    else (some (if b = 0x2C then .trailingComma else .trailingCharacters), b :: rest)

/-- An array or object: one byte to open it, what `body` reads, and its end. The end is sought
also when `body` has stopped, which is then the place of a loose problem. -/
def enclosed {α : Type} (closing : List UInt8 → Option Fault × List UInt8) (body : Reader α) :
    Reader α := fun s =>
  match body s.tail with
  | .ok (a, rest) =>
    match closing rest with
    | (none, rest) => .ok (a, rest)
    | (some f, rest) => .error (.placed (.fault f) (rest.length - 1))
  | .error (.loose p rest) => .error (.placed p (closing rest).2.length)
  | .error stop => .error stop

/-- An array or object where `nesting` more may be open. -/
def nested {α : Type} (closing : List UInt8 → Option Fault × List UInt8)
    (body : Nat → Reader α) : Nat → Reader α
  | 0 => stopPast (.fault .tooDeep)
  | nesting + 1 => enclosed closing (body nesting)

/-- All items of an array. Each takes at least a byte, so `fuel` is never spent. -/
def itemsUpTo {α : Type} (item : Reader α) : Nat → Bool → Reader (List α)
  | 0, _ => stopPast (.fault .endInList)
  | fuel + 1, first => do
    if ← moreItems first then
      let a ← item
      return a :: (← itemsUpTo item fuel false)
    else return []

def items {α : Type} (item : Reader α) : Reader (List α) := fun s =>
  itemsUpTo item (s.length + 1) true s

/-- All members of an object, folded with `member`, which has the name and reads the rest. -/
def membersUpTo {σ : Type} (member : σ → String → Reader σ) : Nat → Bool → σ → Reader σ
  | 0, _, _ => stopPast (.fault .endInObject)
  | fuel + 1, first, acc => do
    if ← moreMembers first then
      let name ← string
      let acc ← member acc name
      membersUpTo member fuel false acc
    else return acc

def members {σ : Type} (member : σ → String → Reader σ) (start : σ) : Reader σ := fun s =>
  membersUpTo member (s.length + 1) true start s

end Workbench.Json
