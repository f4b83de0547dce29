import Workbench.Binary64.Shortest
import Workbench.Json.Basic
import Workbench.Text.Utf8

/-!
# Writing JSON

A layout says what stands between the parts of an array or object. `compact` puts nothing there;
`pretty` starts a new line for each part and indents it by two blanks for each level.

* In a text only the quote, the backslash and the control characters are escaped.
* A float has the fewest digits that read back. Its notation is positional for magnitudes from
  `1e-5` up to `1e16`, always with a point; beyond, one digit stands before the point and the
  exponent has a sign and at least two digits.
-/
namespace Workbench.Json

/-! ## Scalars -/

def hexDigit (n : Nat) : Char := Nat.digitChar n

/-- A character inside a text. -/
def escapeChar (c : Char) : List Char :=
  if c = '"' then ['\\', '"']
  else if c = '\\' then ['\\', '\\']
  else if c = '\x08' then ['\\', 'b']
  else if c = '\t' then ['\\', 't']
  else if c = '\n' then ['\\', 'n']
  else if c = '\x0c' then ['\\', 'f']
  else if c = '\r' then ['\\', 'r']
  else if c.toNat < 0x20 then
    ['\\', 'u', '0', '0', hexDigit (c.toNat / 16), hexDigit (c.toNat % 16)]
  else [c]

def writeString (s : String) : String :=
  String.ofList ('"' :: (s.toList.flatMap escapeChar ++ ['"']))

/-- The exponents of the leading digit for which the notation is positional. -/
def positionalFrom : Int := -5

def positionalTo : Int := 15

def writeExponent (e : Int) : List Char :=
  let digits := Nat.toDigits 10 e.natAbs
  'e' :: (if e < 0 then '-' else '+') :: (if digits.length < 2 then '0' :: digits else digits)

/-- The decimal `digits * 10 ^ exponent` in the notation that its magnitude calls for. -/
def layoutDecimal (digits : List Char) (exponent : Int) : List Char :=
  let point : Int := exponent + digits.length
  if positionalFrom < point ∧ point ≤ positionalTo + 1 then
    if 0 ≤ exponent then digits ++ List.replicate exponent.toNat '0' ++ ['.', '0']
    else if 0 < point then digits.take point.toNat ++ '.' :: digits.drop point.toNat
    else '0' :: '.' :: (List.replicate (-point).toNat '0' ++ digits)
  else
    match digits with
    | [d] => d :: writeExponent (point - 1)
    | _ => digits.take 1 ++ '.' :: digits.drop 1 ++ writeExponent (point - 1)

def writeFloat (x : Binary64) : String :=
  let d := x.shortest
  let magnitude :=
    if x.isZero then ['0', '.', '0'] else layoutDecimal (Nat.toDigits 10 d.digits) d.exponent
  String.ofList (if x.negative then '-' :: magnitude else magnitude)

def writeNumber : Number → String
  | .int n => String.ofList ((if n < 0 then ['-'] else []) ++ Nat.toDigits 10 n.natAbs)
  | .float x => writeFloat x

/-! ## Values -/

/-- What stands before a part on a given level, and between a name and its value. -/
structure Layout where
  gap : Nat → String
  colon : String

def Layout.compact : Layout := ⟨fun _ => "", ":"⟩

def Layout.pretty : Layout := ⟨fun n => String.ofList ('\n' :: List.replicate (2 * n) ' '), ": "⟩

mutual

def write (l : Layout) (level : Nat) : Json → String
  | .null => "null"
  | .bool b => if b then "true" else "false"
  | .num n => writeNumber n
  | .str s => writeString s
  | .arr [] => "[]"
  | .arr (v :: rest) =>
    "[" ++ (l.gap (level + 1) ++ write l (level + 1) v ++ writeItems l (level + 1) rest) ++
      (l.gap level ++ "]")
  | .obj [] => "\x7b\x7d"
  | .obj ((n, v) :: rest) =>
    "\x7b" ++ (l.gap (level + 1) ++ (writeString n ++ (l.colon ++ write l (level + 1) v)) ++
      writeMembers l (level + 1) rest) ++ (l.gap level ++ "\x7d")

/-- The items after the first. -/
def writeItems (l : Layout) (level : Nat) : List Json → String
  | [] => ""
  | v :: rest => "," ++ (l.gap level ++ write l level v) ++ writeItems l level rest

/-- The members after the first. -/
def writeMembers (l : Layout) (level : Nat) : List (String × Json) → String
  | [] => ""
  | (n, v) :: rest =>
    "," ++ (l.gap level ++ (writeString n ++ (l.colon ++ write l level v))) ++
      writeMembers l level rest

end

/-- The text of a value without any blanks. -/
def compact (v : Json) : String := write .compact 0 v

/-- The text of a value with a line for each part. -/
def pretty (v : Json) : String := write .pretty 0 v

end Workbench.Json
