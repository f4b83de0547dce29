/-!
# Base 64

Bytes as letters, digits, `+` and `/`, four for three bytes, filled up with `=`.
-/
namespace Workbench.Text

def base64Digit (n : Nat) : Char :=
  Char.ofNat (if n < 26 then 0x41 + n else if n < 52 then 0x61 + (n - 26)
    else if n < 62 then 0x30 + (n - 52) else if n = 62 then 0x2B else 0x2F)

/-- The first `count` of the four digits of three bytes. -/
def base64Group (count a b c : Nat) : List Char :=
  ([a / 4, a % 4 * 16 + b / 16, b % 16 * 4 + c / 64, c % 64].take count).map base64Digit

def base64Chars : List UInt8 → List Char
  | [] => []
  | [a] => base64Group 2 a.toNat 0 0 ++ ['=', '=']
  | [a, b] => base64Group 3 a.toNat b.toNat 0 ++ ['=']
  | a :: b :: c :: rest => base64Group 4 a.toNat b.toNat c.toNat ++ base64Chars rest

def base64 (bs : List UInt8) : String := String.ofList (base64Chars bs)

end Workbench.Text
