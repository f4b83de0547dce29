/-!
# Bytes and text

Reading UTF-8 either strictly, where one bad byte refuses the whole, or leniently, where each
maximal ill-formed part becomes one replacement character.
-/
namespace Workbench.Text

/-- The bytes of a text in UTF-8. -/
def bytes (s : String) : List UInt8 :=
  s.toUTF8.data.toList

/-- The text that `bs` encodes, if they are well-formed UTF-8. -/
def ofBytes? (bs : List UInt8) : Option String :=
  String.fromUTF8? ⟨bs.toArray⟩

/-- What a first byte announces: the number of bytes after it and the range of the next one. -/
def announced (b : UInt8) : Option (Nat × UInt8 × UInt8) :=
  if b < 0x80 then some (0, 0x80, 0xBF)
  else if b < 0xC2 then none
  else if b < 0xE0 then some (1, 0x80, 0xBF)
  else if b == 0xE0 then some (2, 0xA0, 0xBF)
  else if b == 0xED then some (2, 0x80, 0x9F)
  else if b < 0xF0 then some (2, 0x80, 0xBF)
  else if b == 0xF0 then some (3, 0x90, 0xBF)
  else if b < 0xF4 then some (3, 0x80, 0xBF)
  else if b == 0xF4 then some (3, 0x80, 0x8F)
  else none

/-- The rest of a character of which `due` bytes are still to come, the next one in a range. -/
def completes : Nat → UInt8 → UInt8 → List UInt8 → Bool
  | 0, _, _, _ => true
  | _ + 1, _, _, [] => false
  | due + 1, low, high, b :: rest => low ≤ b && b ≤ high && completes due 0x80 0xBF rest

/-- How many bytes at the front are well-formed. -/
def wellFormedLength : List UInt8 → Nat
  | [] => 0
  | b :: rest =>
    match announced b with
    | some (due, low, high) =>
      if completes due low high rest then 1 + due + wellFormedLength (rest.drop due) else 0
    | none => 0
termination_by bs => bs.length
decreasing_by simp only [List.length_cons, List.length_drop]; omega

/-- A character in the making: the bits so far, the bytes still due and the range of the next. -/
structure Pending where
  bits : Nat
  due : Nat
  low : UInt8
  high : UInt8

def leadBits (b : UInt8) (due : Nat) : Nat :=
  match due with
  | 0 => b.toNat
  | 1 => b.toNat % 32
  | 2 => b.toNat % 16
  | _ => b.toNat % 8

/-- The lenient reading, given the character that is in the making. -/
def lossyChars : Option Pending → List UInt8 → List Char
  | none, [] => []
  | some _, [] => ['\uFFFD']
  | none, b :: rest => start b rest
  | some p, b :: rest =>
    if p.low ≤ b && b ≤ p.high then
      let bits := p.bits * 64 + b.toNat % 64
      if p.due = 1 then Char.ofNat bits :: lossyChars none rest
      else lossyChars (some ⟨bits, p.due - 1, 0x80, 0xBF⟩) rest
    else '\uFFFD' :: start b rest
where
  start (b : UInt8) (rest : List UInt8) : List Char :=
    match announced b with
    | none => '\uFFFD' :: lossyChars none rest
    | some (0, _, _) => Char.ofNat b.toNat :: lossyChars none rest
    | some (due, low, high) => lossyChars (some ⟨leadBits b due, due, low, high⟩) rest

/-- `bs` as text, with a replacement character for each ill-formed part. -/
def ofBytesLossy (bs : List UInt8) : String :=
  String.ofList (lossyChars none bs)

end Workbench.Text
