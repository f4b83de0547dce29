import Workbench.Text.Split
import Workbench.Time
import Workbench.Toml.Basic

/-!
# Numbers, dates and times in TOML

The forms of a value that is neither a text nor a collection. Each function takes the whole word.
-/
namespace Workbench.Toml

open Text (splitOn)

/-! ## Numbers -/

/-- Digits of the class `p`, perhaps with single underscores between them; without the
underscores. -/
def groupedDigits? (p : Char → Bool) (cs : List Char) : Option (List Char) :=
  let groups := splitOn '_' cs
  if groups.all fun g => g ≠ [] && g.all p then some groups.flatten else none

def unsigned (cs : List Char) : Bool × List Char :=
  match cs with
  | '-' :: rest => (true, rest)
  | '+' :: rest => (false, rest)
  | _ => (false, cs)

/-- Decimal digits without a zero in front, zero itself apart. -/
def decimalDigits? (cs : List Char) : Option (List Char) := do
  let digits ← groupedDigits? Char.isDigit cs
  if digits.length > 1 ∧ digits.head? = some '0' then none else some digits

def isHexDigit (c : Char) : Bool :=
  c.isDigit || ('a' ≤ c && c ≤ 'f') || ('A' ≤ c && c ≤ 'F')

def digitValue (c : Char) : Nat :=
  if c.isDigit then c.toNat - 0x30
  else if 'a' ≤ c then c.toNat - 0x57
  else c.toNat - 0x37

def valueIn (base : Nat) (digits : List Char) : Nat :=
  digits.foldl (fun n c => n * base + digitValue c) 0

def integer? (cs : List Char) : Option Int :=
  match cs with
  | '0' :: 'x' :: rest => (groupedDigits? isHexDigit rest).map fun ds => valueIn 16 ds
  | '0' :: 'o' :: rest => (groupedDigits? (fun c => '0' ≤ c && c ≤ '7') rest).map fun ds =>
      valueIn 8 ds
  | '0' :: 'b' :: rest => (groupedDigits? (fun c => c == '0' || c == '1') rest).map fun ds =>
      valueIn 2 ds
  | _ => do
    let (negative, cs) := unsigned cs
    let n : Int := valueIn 10 (← decimalDigits? cs)
    return if negative then -n else n

def isExponentMark (c : Char) : Bool := c == 'e' || c == 'E'

/-- A float: digits with a fraction, an exponent or both; or one of the words for what is not
finite. -/
def float? (cs : List Char) : Option (Option Binary64) := do
  let (negative, cs) := unsigned cs
  if cs = "inf".toList ∨ cs = "nan".toList then return none
  let (mantissa, exponent) := cs.span (!isExponentMark ·)
  let (whole, fraction) := mantissa.span (· != '.')
  if exponent = [] ∧ fraction = [] then none
  let whole ← decimalDigits? whole
  let fraction ←
    match fraction with
    | [] => pure []
    | _ :: ds => groupedDigits? Char.isDigit ds
  let exponent ←
    match exponent with
    | [] => pure (0 : Int)
    | _ :: ds => do
      let (down, ds) := unsigned ds
      let n : Int := valueIn 10 (← groupedDigits? Char.isDigit ds)
      pure (if down then -n else n)
  let exponent := max (-5000) (min exponent 5000)
  return Binary64.ofDecimal negative (valueIn 10 (whole ++ fraction)) (exponent - fraction.length)

/-! ## Dates and times -/

/-- A number of exactly `width` digits. -/
def fixed? (width : Nat) (cs : List Char) : Option Nat :=
  if cs.length = width ∧ cs.all Char.isDigit then some (valueIn 10 cs) else none

def isDate (cs : List Char) : Bool :=
  match splitOn '-' cs with
  | [y, m, d] =>
    match fixed? 4 y, fixed? 2 m, fixed? 2 d with
    | some y, some m, some d =>
      1 ≤ m && m ≤ 12 && 1 ≤ d && d ≤ Civil.daysInMonth y m
    | _, _, _ => false
  | _ => false

/-- Seconds, perhaps with a fraction. -/
def isSecond (cs : List Char) : Bool :=
  let (whole, fraction) := cs.span (· != '.')
  (fixed? 2 whole).any (· ≤ 60) &&
    match fraction with
    | [] => true
    | _ :: ds => ds ≠ [] && ds.all Char.isDigit

def isTime (cs : List Char) : Bool :=
  match splitOn ':' cs with
  | [h, m] => (fixed? 2 h).any (· < 24) && (fixed? 2 m).any (· < 60)
  | [h, m, s] => (fixed? 2 h).any (· < 24) && (fixed? 2 m).any (· < 60) && isSecond s
  | _ => false

/-- A time that may be followed by its distance from Greenwich. -/
def isZonedTime (cs : List Char) : Bool :=
  let (time, zone) := cs.span fun c => c != 'Z' && c != 'z' && c != '+' && c != '-'
  isTime time &&
    match zone with
    | [] => true
    | sign :: rest =>
      if sign == 'Z' || sign == 'z' then rest = []
      else
        match splitOn ':' rest with
        | [h, m] => (fixed? 2 h).any (· < 24) && (fixed? 2 m).any (· < 60)
        | _ => false

def isDatetime (cs : List Char) : Bool :=
  isTime cs || isDate cs ||
    match cs.drop 10 with
    | [] => false
    | c :: time =>
      (c == 'T' || c == 't' || c == ' ') && isDate (cs.take 10) && isZonedTime time

/-! ## Words -/

/-- The value that a word stands for. -/
def word? (cs : List Char) : Option Toml :=
  if cs = "true".toList then some (.boolean true)
  else if cs = "false".toList then some (.boolean false)
  else if isDatetime cs then some (.datetime (String.ofList cs))
  else
    match integer? cs with
    | some n => some (.integer n)
    | none => (float? cs).map .float

end Workbench.Toml
