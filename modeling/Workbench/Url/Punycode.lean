/-!
# Punycode

The labels of a domain name outside ASCII are written with letters, digits and hyphens only: first
the ASCII characters of the label, then the places of all others as numbers of variable length in
base 36. The bias, which says how many digits the next number is likely to need, adapts to the
numbers so far.
-/
namespace Workbench.Url.Punycode

def base : Nat := 36
def skew : Nat := 38
def initialBias : Nat := 72
def firstOutside : Nat := 128

/-- The greatest value that a digit can have at the place `k`, and the first that ends a number. -/
def threshold (k bias : Nat) : Nat :=
  if k ≤ bias then 1 else min 26 (k - bias)

theorem threshold_pos (k bias : Nat) : 0 < threshold k bias := by
  unfold threshold; split <;> omega

/-- Divides until the value is small, and counts the places. -/
def reduce (delta k : Nat) : Nat × Nat :=
  if 455 < delta then reduce (delta / 35) (k + base) else (delta, k)
termination_by delta
decreasing_by omega

/-- The bias after the number `delta`, with `count` characters placed. -/
def adapt (delta count : Nat) (first : Bool) : Nat :=
  let delta := if first then delta / 700 else delta / 2
  let (delta, k) := reduce (delta + delta / count) 0
  k + 36 * delta / (delta + skew)

def digit (n : Nat) : Char :=
  Char.ofNat (if n < 26 then 0x61 + n else 0x30 + (n - 26))

def digitValue (c : Char) : Option Nat :=
  let n := c.toNat
  if 0x61 ≤ n ∧ n ≤ 0x7A then some (n - 0x61)
  else if 0x41 ≤ n ∧ n ≤ 0x5A then some (n - 0x41)
  else if 0x30 ≤ n ∧ n ≤ 0x39 then some (n - 0x30 + 26)
  else none

/-- The digits of a number from the place `k` on. -/
def writeNumber (bias k n : Nat) : List Char :=
  let t := threshold k bias
  if n < t then [digit n]
  else digit (t + (n - t) % (base - t)) :: writeNumber bias (k + base) ((n - t) / (base - t))
termination_by n
decreasing_by
  have h := threshold_pos k bias
  have : (n - threshold k bias) / (base - threshold k bias) ≤ n - threshold k bias :=
    Nat.div_le_self _ _
  omega

/-- The state of writing: the characters placed, the bias, the number in the making. -/
structure Progress where
  placed : Nat
  bias : Nat
  delta : Nat
  output : List Char

/-- Passes a character of the label while those with the code `code` are placed. -/
def place (basic code : Nat) (p : Progress) (c : Char) : Progress :=
  if c.toNat < code then { p with delta := p.delta + 1 }
  else if c.toNat = code then
    ⟨p.placed + 1, adapt p.delta (p.placed + 1) (p.placed == basic), 0,
      p.output ++ writeNumber p.bias base p.delta⟩
  else p

/-- Places all characters from the code `next` on, in the order of their codes. -/
def placeAll (label : List Char) (basic : Nat) : Nat → Nat → Progress → Progress
  | 0, _, p => p
  | fuel + 1, next, p =>
    match ((label.map Char.toNat).filter (next ≤ ·)).min? with
    | none => p
    | some code =>
      let p := { p with delta := p.delta + (code - next) * (p.placed + 1) }
      let p := label.foldl (place basic code) p
      placeAll label basic fuel (code + 1) { p with delta := p.delta + 1 }

/-- A label without its ASCII characters beyond the hyphen that ends them. -/
def encode (label : List Char) : List Char :=
  let basic := label.filter (·.toNat < firstOutside)
  let start := if basic.isEmpty then [] else basic ++ ['-']
  start ++ (placeAll label basic.length label.length firstOutside
    ⟨basic.length, initialBias, 0, []⟩).output

/-- A number from the place `k` on, added to `value` with the weight `weight`. -/
def readNumber (bias : Nat) : Nat → Nat → Nat → List Char → Option (Nat × List Char)
  | _, _, _, [] => none
  | k, value, weight, c :: rest => do
    let d ← digitValue c
    let value := value + d * weight
    let t := threshold k bias
    if d < t then return (value, rest)
    else readNumber bias (k + base) value (weight * (base - t)) rest

/-- Inserts the characters whose places follow. Each takes a digit at least. -/
def insertAll : Nat → Nat → Nat → Nat → List Char → List Char → Option (List Char)
  | _, _, _, _, label, [] => some label
  | 0, _, _, _, _, _ :: _ => none
  | fuel + 1, code, i, bias, label, digits => do
    let (j, rest) ← readNumber bias base i 1 digits
    let count := label.length + 1
    let code := code + j / count
    if code < 0x110000 ∧ ¬(0xD800 ≤ code ∧ code < 0xE000) then
      let at_ := j % count
      let label := label.take at_ ++ Char.ofNat code :: label.drop at_
      insertAll fuel code (at_ + 1) (adapt (j - i) count (i == 0)) label rest
    else none

/-- The label that `encode` would write as `cs`. -/
def decode (cs : List Char) : Option (List Char) :=
  let (digits, basic) := cs.reverse.span (· != '-')
  let basic := basic.tail.reverse
  if basic.all (·.toNat < firstOutside) then
    insertAll (digits.length + 1) firstOutside 0 initialBias basic digits.reverse
  else none

end Workbench.Url.Punycode
