import Workbench.Binary64.Basic

/-!
# The shortest decimal of a number

Among the decimals that are nearer to a number than to its neighbours, `shortest` takes one with
the fewest digits, and of two such the nearer. The layout of the digits is the business of
whoever prints them.
-/
namespace Workbench.Binary64

/-- The decimal `digits * 10 ^ exponent`. -/
structure Decimal where
  digits : Nat
  exponent : Int
  deriving DecidableEq, Repr

/-- A quotient of naturals `num / den`. -/
structure Ratio where
  num : Nat
  den : Nat

/-- `n * 2 ^ e` as a quotient. -/
def dyadic (n : Nat) (e : Int) : Ratio := ⟨n * Nat.pow 2 e.toNat, Nat.pow 2 (-e).toNat⟩

/-- `x / 10 ^ k`. -/
def Ratio.inTens (x : Ratio) (k : Int) : Ratio :=
  ⟨x.num * Nat.pow 10 (-k).toNat, x.den * Nat.pow 10 k.toNat⟩

def Ratio.le (x y : Ratio) : Bool := x.num * y.den ≤ y.num * x.den

def Ratio.lt (x y : Ratio) : Bool := x.num * y.den < y.num * x.den

/-- The numbers that round to a given one: those between the midpoints to its neighbours, with the
midpoints if its mantissa is even. -/
structure Interval where
  low : Ratio
  high : Ratio
  closed : Bool

/-- The interval of `m * 2 ^ e`. Below a power of two the neighbour is half as far. -/
def interval (m : Nat) (e : Int) : Interval :=
  let below := if m = leastNormal ∧ minExponent < e then 1 else 2
  ⟨dyadic (4 * m - below) (e - 2), dyadic (4 * m + 2) (e - 2), m % 2 == 0⟩

/-- `c * 10 ^ k` rounds to the number of the interval. -/
def Interval.holds (i : Interval) (c : Nat) (k : Int) : Bool :=
  let low := i.low.inTens k
  let high := i.high.inTens k
  let x : Ratio := ⟨c, 1⟩
  if i.closed then low.le x && x.le high else low.lt x && x.lt high

/-- The exponent of the leading decimal digit of `x`, sought upwards from `k`. -/
def leading (x : Ratio) : Nat → Int → Int
  | 0, k => k
  | fuel + 1, k => if (x.inTens (k + 1)).num < (x.inTens (k + 1)).den then k else leading x fuel (k + 1)

def leadingExponent (x : Ratio) : Int :=
  leading x 4 (((x.num.log2 : Int) - x.den.log2) * 30103 / 100000 - 1)

/-- The decimal on the grid `10 ^ k` that stands for `x`, if one of the two beside `x` does. -/
def onGrid (i : Interval) (x : Ratio) (k : Int) : Option Decimal :=
  let y := x.inTens k
  let c := y.num / y.den
  let rest := 2 * (y.num % y.den)
  let down := i.holds c k
  let up := i.holds (c + 1) k
  if down && up then
    if rest < y.den ∨ (rest = y.den ∧ c % 2 = 0) then some ⟨c, k⟩ else some ⟨c + 1, k⟩
  else if down then some ⟨c, k⟩
  else if up then some ⟨c + 1, k⟩
  else none

/-- The first hit on ever finer grids. -/
def search (i : Interval) (x : Ratio) : Nat → Int → Decimal
  | 0, k => ⟨(x.inTens k).num / (x.inTens k).den, k⟩
  | fuel + 1, k => (onGrid i x k).getD (search i x fuel (k - 1))

/-- The shortest decimal of the magnitude of `x`. The first grid is one above the leading digit,
since the number can lie just below a power of ten that stands for it; seventeen digits always
suffice. -/
def shortest (x : Binary64) : Decimal :=
  if x.isZero then ⟨0, 0⟩
  else
    let v := dyadic x.mantissa x.exponent
    search (interval x.mantissa x.exponent) v 18 (leadingExponent v + 1)

end Workbench.Binary64
