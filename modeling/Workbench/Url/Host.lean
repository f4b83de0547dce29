import Workbench.Text.Blank
import Workbench.Text.Lowercase
import Workbench.Text.Split
import Workbench.Url.Percent
import Workbench.Url.Punycode

/-!
# Hosts

The host of a URL with a well-known scheme is a domain or an IP address. A domain is brought to its
ASCII form: lower case, compatible forms of ASCII characters replaced, labels outside ASCII in
Punycode. A domain whose last label is a number has to be an IPv4 address. Any other scheme has
opaque hosts, which are kept as they are.

The ASCII form is that of UTS 46 for domains of letters, digits and hyphens and of the fullwidth
forms of ASCII. The rest of its table is left out: of other characters with a compatible form (`℀`,
`①`, `ﬀ`) none is replaced, and none is refused because of what would replace it; letters and the
marks on them are not composed; of characters without a meaning of their own only the blocks in
`isUnassignable` are refused; and nothing is asked of scripts that are written from right to left.
-/
namespace Workbench

/-- Why a text is no URL. -/
inductive UrlError
  | noScheme
  | emptyHost
  | badPort
  | badIpv4
  | badIpv6
  | badDomain
  | badHostCharacter
  deriving DecidableEq, Repr

def UrlError.message : UrlError → String
  | .noScheme => "relative URL without a base"
  | .emptyHost => "empty host"
  | .badPort => "invalid port number"
  | .badIpv4 => "invalid IPv4 address"
  | .badIpv6 => "invalid IPv6 address"
  | .badDomain => "invalid international domain name"
  | .badHostCharacter => "invalid domain character"

open Text (splitOn)

namespace Url

inductive Host
  | domain (name : String)
  | ipv4 (address : Nat)
  | ipv6 (pieces : List Nat)
  deriving DecidableEq, Repr

/-! ## Domains -/

/-- Characters that no domain has, though they are ASCII. -/
def isForbidden (c : Char) : Bool :=
  Encoded.controls c || " %#/:<>?@[\\]^|".toList.contains c

/-- Characters that a domain is written without. -/
def isIgnored (c : Char) : Bool :=
  let n := c.toNat
  n == 0xAD || n == 0x34F || n == 0x200B || n == 0x2060 || n == 0x2064 || n == 0xFEFF ||
    (0x180B ≤ n && n ≤ 0x180F && n != 0x180E) || (0xFE00 ≤ n && n ≤ 0xFE0F) ||
    (0xE0100 ≤ n && n ≤ 0xE01EF)

/-- Characters beyond ASCII that no domain has: blanks, controls, and those without a meaning of
their own. -/
def isUnassignable (c : Char) : Bool :=
  let n := c.toNat
  n ≥ 0x80 && (Text.isBlank c || n ≤ 0x9F || (0x200C ≤ n && n ≤ 0x200F) ||
    (0x202A ≤ n && n ≤ 0x202E) || (0x2061 ≤ n && n ≤ 0x206F) || (0xE000 ≤ n && n ≤ 0xF8FF) ||
    (0xFDD0 ≤ n && n ≤ 0xFDEF) || (0xFFF0 ≤ n && n ≤ 0xFFFF) || 0xE0000 ≤ n || n % 0x10000 ≥ 0xFFFE)

/-- A character that attaches to the one before it and so begins no label. -/
def isCombining (c : Char) : Bool :=
  let n := c.toNat
  (0x300 ≤ n && n ≤ 0x36F) || (0x1AB0 ≤ n && n ≤ 0x1AFF) || (0x1DC0 ≤ n && n ≤ 0x1DFF) ||
    (0x20D0 ≤ n && n ≤ 0x20FF) || (0xFE20 ≤ n && n ≤ 0xFE2F)

/-- What stands for a character in a domain. -/
def foldChar (c : Char) : List Char :=
  let n := c.toNat
  if isIgnored c then []
  else if n = 0x3002 ∨ n = 0xFF0E ∨ n = 0xFF61 then ['.']
  else if n = 0x1E9E then ['s', 's']
  else if 0xFF01 ≤ n ∧ n ≤ 0xFF5E then Text.lowerChar (Char.ofNat (n - 0xFEE0))
  else Text.lowerChar c

def isAscii (cs : List Char) : Bool := cs.all (·.toNat < 0x80)

/-- What follows the mark of a label in Punycode. -/
def punycodePart (label : List Char) : Option (List Char) :=
  match label with
  | 'x' :: 'n' :: '-' :: '-' :: rest => some rest
  | _ => none

/-- A label that is not in Punycode can stand in a domain. -/
def isPlainLabel (label : List Char) : Bool :=
  label.all (fun c => !isForbidden c && !isUnassignable c) && !label.head?.any isCombining

/-- The ASCII form of a folded label. -/
def asciiLabel (label : List Char) : Except UrlError (List Char) :=
  match punycodePart label with
  | some digits =>
    if isAscii label then
      match Punycode.decode digits with
      | none => .error .badDomain
      | some shown =>
        if shown ≠ [] ∧ ¬isAscii shown ∧ isPlainLabel shown ∧ shown.flatMap foldChar = shown then
          .ok label
        else .error .badDomain
    else .error .badDomain
  | none =>
    if isPlainLabel label then
      if isAscii label then .ok label
      else .ok ("xn--".toList ++ Punycode.encode label)
    else .error .badDomain

/-- The ASCII form of a domain. -/
def asciiDomain (cs : List Char) : Except UrlError (List Char) := do
  let labels ← (splitOn '.' (cs.flatMap foldChar)).mapM asciiLabel
  return ['.'].intercalate labels

/-! ## IPv4 addresses -/

/-- The value of a text of digits in `base`; of an empty one, zero. -/
def digitsIn (base : Nat) (cs : List Char) : Option Nat :=
  cs.foldlM (fun n c => do
    let d ← hexValue c.val.toUInt8
    if c.toNat < 0x80 ∧ d.toNat < base then return n * base + d.toNat else none) 0

/-- A part of an IPv4 address: decimal, octal after `0`, hexadecimal after `0x`. -/
def ipv4Part (cs : List Char) : Option Nat :=
  match cs with
  | [] => none
  | '0' :: 'x' :: rest => digitsIn 16 rest
  | '0' :: 'X' :: rest => digitsIn 16 rest
  | '0' :: c :: rest => digitsIn 8 (c :: rest)
  | _ => digitsIn 10 cs

/-- The parts of a domain without the empty one behind a final dot. -/
def domainParts (cs : List Char) : List (List Char) :=
  let parts := splitOn '.' cs
  if parts.getLast? = some [] ∧ parts.length > 1 then parts.dropLast else parts

def endsInNumber (cs : List Char) : Bool :=
  match (domainParts cs).getLast? with
  | none => false
  | some last => (last ≠ [] && last.all Char.isDigit) || (ipv4Part last).isSome

/-- The address with the given parts, of which the last has all the bytes that are left. -/
def ipv4OfParts (parts : List Nat) : Option Nat :=
  match parts.getLast? with
  | none => none
  | some last =>
    let others := parts.dropLast
    if parts.length ≤ 4 ∧ others.all (· < 256) ∧ last < Nat.pow 256 (4 - others.length) then
      some (others.foldl (fun n b => n * 256 + b) 0 * Nat.pow 256 (4 - others.length) + last)
    else none

def ipv4? (cs : List Char) : Option Nat := do
  ipv4OfParts (← (domainParts cs).mapM ipv4Part)

/-! ## IPv6 addresses -/

/-- The four decimal numbers at the end of an IPv6 address, as two pieces. -/
def ipv4Tail (cs : List Char) : Option (List Nat) := do
  let bytes ← (splitOn '.' cs).mapM fun part => do
    if part = [] ∨ ¬part.all Char.isDigit ∨ (part.length > 1 ∧ part.head? = some '0') then none
    else
      let n := Nat.ofDigitChars 10 part 0
      if n < 256 then some n else none
  match bytes with
  | [a, b, c, d] => return [a * 256 + b, c * 256 + d]
  | _ => none

/-- Pieces between single colons; the last one may be an IPv4 address. -/
def ipv6Pieces : List (List Char) → Option (List Nat)
  | [] => some []
  | [last] => if last.contains '.' then ipv4Tail last else do return [← piece last]
  | part :: parts => do return (← piece part) :: (← ipv6Pieces parts)
where
  piece (cs : List Char) : Option Nat :=
    if cs = [] ∨ cs.length > 4 then none else digitsIn 16 cs

/-- `cs` cut at its first double colon. -/
def cutAtGap : List Char → Option (List Char × List Char)
  | [] => none
  | [_] => none
  | a :: b :: rest =>
    if a = ':' ∧ b = ':' then some ([], rest)
    else (cutAtGap (b :: rest)).map fun (x, y) => (a :: x, y)

/-- The pieces of a part of an address, which may be empty. -/
def ipv6Run (cs : List Char) : Option (List Nat) :=
  if cs = [] then some [] else ipv6Pieces (splitOn ':' cs)

/-- The eight pieces of an address; a double colon stands for as many zeros as are missing. -/
def ipv6? (cs : List Char) : Option (List Nat) := do
  match cutAtGap cs with
  | none =>
    let pieces ← ipv6Pieces (splitOn ':' cs)
    if pieces.length = 8 then some pieces else none
  | some (before, after) =>
    if before.contains '.' then none
    else
      let front ← ipv6Run before
      let back ← ipv6Run after
      if front.length + back.length < 8 then
        some (front ++ List.replicate (8 - front.length - back.length) 0 ++ back)
      else none

/-- The length of the longest run of zeros and the number of pieces before the first such run,
given those passed so far. -/
def longestZeros : Nat → List Nat → Nat × Nat
  | _, [] => (0, 0)
  | passed, p :: ps =>
    let here := ((p :: ps).takeWhile (· == 0)).length
    let (length, start) := longestZeros (passed + 1) ps
    if 0 < here ∧ length ≤ here then (here, passed) else (length, start)

def hexPiece (n : Nat) : String := String.ofList (Nat.toDigits 16 n)

/-- An IPv6 address with the longest run of at least two zeros left out. -/
def ipv6Text (pieces : List Nat) : String :=
  let (length, start) := longestZeros 0 pieces
  let join (ps : List Nat) := ":".intercalate (ps.map hexPiece)
  if 2 ≤ length then join (pieces.take start) ++ "::" ++ join (pieces.drop (start + length))
  else join pieces

/-! ## Hosts -/

namespace Host

def text : Host → String
  | .domain name => name
  | .ipv4 a =>
    ".".intercalate
      ([a / 0x1000000, a / 0x10000 % 256, a / 256 % 256, a % 256].map fun n => toString n)
  | .ipv6 pieces => "[" ++ ipv6Text pieces ++ "]"

/-- What stands between brackets. -/
def ofBrackets (cs : List Char) : Except UrlError Host :=
  if cs.getLast? = some ']' then
    match ipv6? cs.dropLast with
    | some pieces => .ok (.ipv6 pieces)
    | none => .error .badIpv6
  else .error .badIpv6

/-- The host of a URL with a well-known scheme. -/
def parse (cs : List Char) : Except UrlError Host :=
  match cs with
  | '[' :: rest => ofBrackets rest
  | _ =>
    match Text.ofBytes? (percentDecode (Text.bytes (String.ofList cs))) with
    | none => .error .badDomain
    | some decoded => do
      let name ← asciiDomain decoded.toList
      if name = [] then throw .emptyHost
      else if endsInNumber name then
        match ipv4? name with
        | some a => return .ipv4 a
        | none => throw .badIpv4
      else return .domain (String.ofList name)

/-- The host of a URL with any other scheme. -/
def parseOpaque (cs : List Char) : Except UrlError Host :=
  match cs with
  | '[' :: rest => ofBrackets rest
  | _ =>
    if cs.any (fun c => "\x00\t\n\r #/:<>?@[\\]^|".toList.contains c) then .error .badHostCharacter
    else .ok (.domain (percentEncode Encoded.controls cs))

end Host

end Url

end Workbench
