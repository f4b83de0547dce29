/-!
# Finite binary64 numbers

A number is `± mantissa * 2 ^ exponent` with a mantissa of at most 53 bits. Products and quotients
are computed exactly on naturals and then rounded once, to the nearest number and a half to the
even neighbour; a result beyond the largest finite number is `none`.
-/
namespace Workbench

/-- The finite number `± mantissa * 2 ^ exponent`. Numbers in the normal range have a mantissa of
53 bits; below it the exponent stays at `-1074`. -/
structure Binary64 where
  negative : Bool
  mantissa : Nat
  exponent : Int
  deriving DecidableEq, Repr

namespace Binary64

/-- The least mantissa of 53 bits. -/
def leastNormal : Nat := 0x10000000000000

def minExponent : Int := -1074

def maxExponent : Int := 971

def zero (negative : Bool) : Binary64 := ⟨negative, 0, minExponent⟩

def isZero (x : Binary64) : Bool := x.mantissa == 0

def neg (x : Binary64) : Binary64 := { x with negative := !x.negative }

/-- `num / den` counted in units of `2 ^ e`, to the nearest whole number, a half to the even one. -/
def roundAt (num den : Nat) (e : Int) : Nat :=
  let n := num * Nat.pow 2 (-e).toNat
  let d := den * Nat.pow 2 e.toNat
  let q := n / d
  let r := n % d
  if d < 2 * r ∨ (2 * r = d ∧ q % 2 = 1) then q + 1 else q

/-- The exponent at which `num / den` has a mantissa of 53 bits, or the least one there is. -/
def unitOf (num den : Nat) : Int :=
  let e := max ((num.log2 : Int) - den.log2 - 53) minExponent
  if 2 * leastNormal ≤ num * Nat.pow 2 (-e).toNat / (den * Nat.pow 2 e.toNat) then e + 1 else e

/-- The number nearest to `± num / den`. -/
def nearest (negative : Bool) (num den : Nat) : Option Binary64 :=
  if num = 0 then some (zero negative)
  else
    let e := unitOf num den
    let m := roundAt num den e
    let (m, e) := if m = 2 * leastNormal then (leastNormal, e + 1) else (m, e)
    if maxExponent < e then none else some ⟨negative, m, e⟩

def ofNat (n : Nat) : Option Binary64 := nearest false n 1

def mul (x y : Binary64) : Option Binary64 :=
  let e := x.exponent + y.exponent
  nearest (x.negative != y.negative) (x.mantissa * y.mantissa * Nat.pow 2 e.toNat)
    (Nat.pow 2 (-e).toNat)

/-- The quotient by a number other than zero. -/
def div (x y : Binary64) : Option Binary64 :=
  let e := x.exponent - y.exponent
  nearest (x.negative != y.negative) (x.mantissa * Nat.pow 2 e.toNat)
    (y.mantissa * Nat.pow 2 (-e).toNat)

/-- The largest power of ten below the end of the range. -/
def maxPower : Nat := 308

/-- The number nearest to `10 ^ k`. -/
def powerOfTen (k : Nat) : Option Binary64 := nearest false (Nat.pow 10 k) 1

/-- `n` quotients by the largest power of ten, stopping early at zero. -/
def lower : Nat → Binary64 → Option Binary64
  | 0, x => some x
  | n + 1, x => if x.isZero then some x else do lower n (← div x (← powerOfTen maxPower))

/-- `x * 10 ^ e`, rounded after each step: one product for a positive power; for a negative one a
quotient, after as many quotients by the largest power as it takes. -/
def scale (x : Binary64) (e : Int) : Option Binary64 :=
  if 0 ≤ e then
    if e ≤ maxPower then do mul x (← powerOfTen e.toNat)
    else if x.isZero then some x else none
  else do
    let k := (-e).toNat
    let steps := (k - 1) / maxPower
    let y ← lower steps x
    if y.isZero then some y else div y (← powerOfTen (k - maxPower * steps))

/-- The reading of `± significand * 10 ^ exponent`: the significand is rounded first and then
scaled, so that the result can differ from the nearest number in its last bit. -/
def ofDecimal (negative : Bool) (significand : Nat) (exponent : Int) : Option Binary64 := do
  let x ← scale (← ofNat significand) exponent
  return if negative then x.neg else x

end Binary64

end Workbench
