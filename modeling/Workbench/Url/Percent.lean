import Workbench.Text.Utf8

/-!
# Percent encoding

Bytes that a part of a URL may not show stand there as a percent sign and two hexadecimal digits.
Each part has a set of its own.
-/
namespace Workbench.Url

/-- The ASCII characters that a part of a URL encodes. All others beyond ASCII are encoded in every
part. -/
abbrev Encoded := Char → Bool

namespace Encoded

def controls : Encoded := fun c => c.toNat < 0x20 || c.toNat == 0x7F

def fragment : Encoded := fun c => controls c || " \"<>`".toList.contains c

def query : Encoded := fun c => controls c || " \"#<>".toList.contains c

/-- The query of a URL with one of the well-known schemes. -/
def specialQuery : Encoded := fun c => query c || c == '\''

def path : Encoded := fun c => fragment c || "#?^\x7b\x7d".toList.contains c

def userinfo : Encoded := fun c => path c || "/:;=@[\\]|".toList.contains c

end Encoded

def upperHex (n : Nat) : Char := (Nat.digitChar n).toUpper

def encodeByte (b : UInt8) : List Char :=
  ['%', upperHex (b.toNat / 16), upperHex (b.toNat % 16)]

def encodeChar (set : Encoded) (c : Char) : List Char :=
  if c.toNat < 0x80 && !set c then [c]
  else (String.utf8EncodeChar c).flatMap encodeByte

def percentEncode (set : Encoded) (cs : List Char) : String :=
  String.ofList (cs.flatMap (encodeChar set))

def hexValue (b : UInt8) : Option UInt8 :=
  if 0x30 ≤ b && b ≤ 0x39 then some (b - 0x30)
  else if 0x41 ≤ b && b ≤ 0x46 then some (b - 0x37)
  else if 0x61 ≤ b && b ≤ 0x66 then some (b - 0x57)
  else none

/-- The bytes of a text after decoding. A percent sign without two digits stands for itself. -/
def percentDecode : List UInt8 → List UInt8
  | [] => []
  | [a] => [a]
  | [a, b] => [a, b]
  | a :: b :: c :: rest =>
    if a = 0x25 then
      match hexValue b, hexValue c with
      | some x, some y => (x * 16 + y) :: percentDecode rest
      | _, _ => a :: percentDecode (b :: c :: rest)
    else a :: percentDecode (b :: c :: rest)

end Workbench.Url
