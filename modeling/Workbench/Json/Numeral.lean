import Workbench.Json.Reader

/-!
# Reading numbers

A numeral without fraction and exponent is an integer as long as it has 64 bits; all other
numerals are floats, negative zero included. Of a float the digits are taken into a significand of
at most 64 bits. Those that no longer fit only count towards the exponent, and the number is then
made by `Binary64.ofDecimal`.
-/
namespace Workbench.Json

def maxSignificand : Nat := 0xFFFFFFFFFFFFFFFF

/-- Takes digits into `n` while it stays within `limit`. -/
def absorb (limit n : Nat) : List UInt8 → Nat × List UInt8
  | [] => (n, [])
  | d :: ds =>
    let m := n * 10 + digitValue d
    if limit < m then (n, d :: ds) else absorb limit m ds

/-- The digits at the front, and what follows them. -/
def digits (s : List UInt8) : List UInt8 × List UInt8 :=
  (s.takeWhile isDigit, s.dropWhile isDigit)

def isExponentMark (b : Option UInt8) : Bool := b == some 0x65 || b == some 0x45

/-- The float with these parts, which ends before `rest`. -/
def floatOf (negative : Bool) (significand : Nat) (exponent : Int) : Reader Number := fun rest =>
  match Binary64.ofDecimal negative significand exponent with
  | some x => .ok (.float x, rest)
  | none => .error (.placed (.fault .numberTooLarge) rest.length)

/-- The limit of a written exponent. -/
def maxExponent : Nat := 0x7FFFFFFF

/-- The exponent of a float, from its mark on. An exponent that is out of any range makes zero if
it is negative or has only a zero to scale. -/
def exponentPart (negative : Bool) (significand : Nat) (exponent : Int) : Reader Number := fun s =>
  let s := s.tail
  let (down, s) :=
    if s.head? = some 0x2B then (false, s.tail)
    else if s.head? = some 0x2D then (true, s.tail)
    else (false, s)
  match s with
  | [] => .error (.placed (.fault .endInValue) 0)
  | b :: after =>
    if isDigit b then
      let (ds, rest) := digits s
      match absorb maxExponent 0 ds with
      | (e, []) =>
        floatOf negative significand (if down then exponent - e else exponent + e) rest
      | (_, _ :: more) =>
        if significand ≠ 0 ∧ ¬ down then
          .error (.placed (.fault .numberTooLarge) (more.length + rest.length))
        else .ok (.float (Binary64.zero negative), rest)
    else .error (.placed (.fault .badNumber) after.length)

/-- The fraction of a float, from its point on. -/
def fractionPart (negative : Bool) (significand : Nat) (exponent : Int) : Reader Number := fun s =>
  let (ds, rest) := digits s.tail
  if ds = [] then
    if rest = [] then .error (.placed (.fault .endInValue) 0)
    else .error (.placed (.fault .badNumber) (rest.length - 1))
  else
    let (n, spare) := absorb maxSignificand significand ds
    let exponent := exponent - (ds.length - spare.length : Nat)
    if isExponentMark rest.head? then exponentPart negative n exponent rest
    else floatOf negative n exponent rest

/-- What follows the digits before the point. -/
def afterDigits (negative : Bool) (significand : Nat) (dropped : Nat) : Reader Number := fun s =>
  if s.head? = some 0x2E then fractionPart negative significand dropped s
  else if isExponentMark s.head? then exponentPart negative significand dropped s
  else if dropped ≠ 0 then floatOf negative significand dropped s
  else if ¬ negative then .ok (.int significand, s)
  else if 0 < significand ∧ significand ≤ 0x8000000000000000 then .ok (.int (-significand), s)
  else floatOf true significand 0 s

/-- A number from its first digit on. -/
def unsigned (negative : Bool) : Reader Number := fun s =>
  match s with
  | [] => .error (.placed (.fault .endInValue) 0)
  | b :: rest =>
    if b = 0x30 then
      if (rest.head?.map isDigit).getD false then
        .error (.placed (.fault .badNumber) (rest.length - 1))
      else afterDigits negative 0 0 rest
    else if isDigit b then
      let (ds, rest) := digits s
      let (n, spare) := absorb maxSignificand 0 ds
      afterDigits negative n spare.length rest
    else .error (.placed (.fault .badNumber) rest.length)

/-- A number, from its minus sign or first digit on. -/
def number (h : Head) : Reader Number := do
  if h = .minus then
    advance
    unsigned true
  else unsigned false

/-! ## Numbers that are passed over -/

def skipExponent : Reader Unit := fun s =>
  let s := s.tail
  let s := if s.head? = some 0x2B || s.head? = some 0x2D then s.tail else s
  match s with
  | [] => .error (.placed (.fault .badNumber) 0)
  | b :: rest =>
    if isDigit b then .ok ((), rest.dropWhile isDigit)
    else .error (.placed (.fault .badNumber) rest.length)

def skipAfterDigits : Reader Unit := fun s =>
  if s.head? = some 0x2E then
    let (ds, rest) := digits s.tail
    if ds = [] then .error (.placed (.fault .badNumber) (rest.length - 1))
    else if isExponentMark rest.head? then skipExponent rest
    else .ok ((), rest)
  else if isExponentMark s.head? then skipExponent s
  else .ok ((), s)

def skipUnsigned : Reader Unit := fun s =>
  match s with
  | [] => .error (.placed (.fault .badNumber) 0)
  | b :: rest =>
    if b = 0x30 then
      if (rest.head?.map isDigit).getD false then
        .error (.placed (.fault .badNumber) (rest.length - 1))
      else skipAfterDigits rest
    else if isDigit b then skipAfterDigits (rest.dropWhile isDigit)
    else .error (.placed (.fault .badNumber) rest.length)

/-- Passes over a number of any size. -/
def skipNumber (h : Head) : Reader Unit := do
  if h = .minus then
    advance
    skipUnsigned
  else skipUnsigned

end Workbench.Json
