import Workbench.Text.Blank
import Workbench.Text.Split
import Workbench.Text.Utf8

/-!
# Charsets

The text that bytes stand for, where a charset has been named for them. A byte order mark counts for
more than what was named, and is no part of the text; each ill-formed part becomes one replacement
character. Only the charsets of Unicode are spelled out. What bytes say in any other one is left to
whoever knows it.
-/
namespace Workbench.Text

inductive ByteOrder
  | big
  | little
  deriving DecidableEq, Repr

inductive Charset
  | utf8
  | utf16 (order : ByteOrder)
  /-- Any other charset, in which the bytes say `text`. -/
  | other (text : String)
  deriving DecidableEq, Repr

/-! ## Code units -/

def ByteOrder.unit (order : ByteOrder) (a b : UInt8) : Nat :=
  match order with
  | .big => a.toNat * 0x100 + b.toNat
  | .little => b.toNat * 0x100 + a.toNat

/-- The units of two bytes each; of a single byte at the end there is none. -/
def units (order : ByteOrder) : List UInt8 → List (Option Nat)
  | [] => []
  | [_] => [none]
  | a :: b :: rest => some (order.unit a b) :: units order rest

def isLead (n : Nat) : Bool := 0xD800 ≤ n && n < 0xDC00

def isTrail (n : Nat) : Bool := 0xDC00 ≤ n && n < 0xE000

/-- The characters of the units, given the first half of a pair that is still to be completed. -/
def unitChars : Option Nat → List (Option Nat) → List Char
  | none, [] => []
  | some _, [] => ['\uFFFD']
  | _, none :: rest => '\uFFFD' :: unitChars none rest
  | none, some n :: rest => start n rest
  | some lead, some n :: rest =>
    if isTrail n then
      Char.ofNat (0x10000 + (lead - 0xD800) * 0x400 + (n - 0xDC00)) :: unitChars none rest
    else '\uFFFD' :: start n rest
where
  start (n : Nat) (rest : List (Option Nat)) : List Char :=
    if isLead n then unitChars (some n) rest
    else if isTrail n then '\uFFFD' :: unitChars none rest
    else Char.ofNat n :: unitChars none rest

/-! ## Reading -/

/-- The charset that a byte order mark tells, and what follows the mark. -/
def cutMark : List UInt8 → Option (Charset × List UInt8)
  | 0xEF :: 0xBB :: 0xBF :: rest => some (.utf8, rest)
  | 0xFE :: 0xFF :: rest => some (.utf16 .big, rest)
  | 0xFF :: 0xFE :: rest => some (.utf16 .little, rest)
  | _ => none

namespace Charset

/-- What bytes without a mark say. -/
def decodeUnmarked (c : Charset) (bs : List UInt8) : String :=
  match c with
  | .utf8 => ofBytesLossy bs
  | .utf16 order => String.ofList (unitChars none (units order bs))
  | .other text => text

def decode (c : Charset) (bs : List UInt8) : String :=
  match cutMark bs with
  | some (marked, rest) => marked.decodeUnmarked rest
  | none => c.decodeUnmarked bs

/-- The charset with a name. A name that is not one of UTF-16 stands for UTF-8. -/
def ofName (name : String) : Charset :=
  let name := (trim name).toLower
  if ["utf-16be", "unicodefffe"].contains name then .utf16 .big
  else if ["utf-16", "utf-16le", "csunicode", "iso-10646-ucs-2", "ucs-2", "unicode",
      "unicodefeff"].contains name then .utf16 .little
  else .utf8

/-- The charset that a media type names, `text/plain; charset=utf-8` for instance. -/
def ofMediaType (value : String) : Charset :=
  let named := (splitOn ';' value.toList).drop 1 |>.findSome? fun parameter =>
    let (name, text) := parameter.span (· != '=')
    if (trim (String.ofList name)).toLower = "charset" then
      some (ofName (String.ofList ((text.drop 1).filter (· != '"'))))
    else none
  named.getD .utf8

end Charset

end Workbench.Text
