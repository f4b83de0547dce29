import Workbench.Text.Blank

/-!
# Integers in texts

A decimal integer as people type it: digits, with a sign in front if they like. Signs that a type
has no use for and values out of its range are refused.
-/
namespace Workbench.Text

/-- The value of a non-empty list of decimal digits. -/
def digitsValue? (cs : List Char) : Option Nat :=
  if cs ≠ [] ∧ cs.all Char.isDigit then some (Nat.ofDigitChars 10 cs 0) else none

def uint64? (s : String) : Option UInt64 := do
  let n ← digitsValue?
    (match s.toList with
    | '+' :: cs => cs
    | cs => cs)
  if n < 0x10000000000000000 then some (UInt64.ofNat n) else none

def int64? (s : String) : Option Int64 := do
  let (negative, cs) :=
    match s.toList with
    | '+' :: cs => (false, cs)
    | '-' :: cs => (true, cs)
    | cs => (false, cs)
  let n ← digitsValue? cs
  let i : Int := if negative then -n else n
  if -0x8000000000000000 ≤ i ∧ i < 0x8000000000000000 then some (Int64.ofInt i) else none

end Workbench.Text
