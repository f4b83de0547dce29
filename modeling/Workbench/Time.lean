/-!
# Points in time

An `Instant` counts seconds from the start of 1970 and nanoseconds within the second; a leap second
counts as the second before it with a second more of nanoseconds. A `Civil` time is a date of the
Gregorian calendar with a time of day.
-/
namespace Workbench

def pad (width n : Nat) : String :=
  let digits := Nat.toDigits 10 n
  String.ofList (List.replicate (width - digits.length) '0' ++ digits)

/-- A year with four digits, and with a sign beyond those. -/
def yearText (year : Int) : String :=
  if 0 ≤ year ∧ year ≤ 9999 then pad 4 year.toNat
  else (if year < 0 then "-" else "+") ++ pad 4 year.natAbs

/-- A date and a time of day. -/
structure Civil where
  year : Int
  month : Nat
  day : Nat
  hour : Nat
  minute : Nat
  second : Nat
  deriving DecidableEq, Repr

namespace Civil

def isLeapYear (y : Int) : Bool := y % 4 == 0 && (y % 100 != 0 || y % 400 == 0)

def daysInMonth (y : Int) (m : Nat) : Nat :=
  if m = 2 then (if isLeapYear y then 29 else 28)
  else if m = 4 ∨ m = 6 ∨ m = 9 ∨ m = 11 then 30
  else 31

def minYear : Int := -262143

def maxYear : Int := 262142

/-- A date that the calendar has and a time that a clock shows. -/
def Valid (c : Civil) : Prop :=
  minYear ≤ c.year ∧ c.year ≤ maxYear ∧ 1 ≤ c.month ∧ c.month ≤ 12 ∧ 1 ≤ c.day ∧
    c.day ≤ daysInMonth c.year c.month ∧ c.hour < 24 ∧ c.minute < 60 ∧ c.second < 60

instance (c : Civil) : Decidable c.Valid := inferInstanceAs (Decidable (_ ∧ _))

/-- Year, month, day, hour, minute and second in a row of digits. -/
def stamp (c : Civil) : String :=
  yearText c.year ++ pad 2 c.month ++ pad 2 c.day ++ pad 2 c.hour ++ pad 2 c.minute ++
    pad 2 c.second

end Civil

def nanosPerSecond : Nat := 1000000000

def nanosPerMilli : Nat := 1000000

structure Instant where
  seconds : Int
  nanos : Nat
  deriving DecidableEq, Repr

namespace Instant

/-- The date that lies `days` days after the first of January 1970. Years are counted from March
for the purpose, in cycles of 400 years with 146097 days. -/
def dateOf (days : Int) : Int × Nat × Nat :=
  let z := days + 719468
  let cycle := z / 146097
  let dayOfCycle := (z % 146097).toNat
  let yearOfCycle :=
    (dayOfCycle - dayOfCycle / 1460 + dayOfCycle / 36524 - dayOfCycle / 146096) / 365
  let dayOfYear := dayOfCycle - (365 * yearOfCycle + yearOfCycle / 4 - yearOfCycle / 100)
  let m := (5 * dayOfYear + 2) / 153
  let day := dayOfYear - (153 * m + 2) / 5 + 1
  let month := if m < 10 then m + 3 else m - 9
  let year : Int := yearOfCycle + cycle * 400
  (if month ≤ 2 then year + 1 else year, month, day)

/-- The civil time in Greenwich, in which a leap second repeats the second before it. -/
def civil (t : Instant) : Civil :=
  let (year, month, day) := dateOf (t.seconds / 86400)
  let s := (t.seconds % 86400).toNat
  ⟨year, month, day, s / 3600, s / 60 % 60, s % 60⟩

def Valid (t : Instant) : Prop :=
  t.civil.Valid ∧
    (t.nanos < nanosPerSecond ∨ (t.nanos < 2 * nanosPerSecond ∧ t.civil.second = 59))

instance (t : Instant) : Decidable t.Valid := inferInstanceAs (Decidable (_ ∧ _))

/-- The instant to the millisecond, as `2025-03-04T05:06:07.089Z`. -/
def text (t : Instant) : String :=
  let c := t.civil
  let leap := t.nanos / nanosPerSecond
  yearText c.year ++ "-" ++ pad 2 c.month ++ "-" ++ pad 2 c.day ++ "T" ++ pad 2 c.hour ++ ":" ++
    pad 2 c.minute ++ ":" ++ pad 2 (c.second + leap) ++ "." ++
    pad 3 (t.nanos % nanosPerSecond / nanosPerMilli) ++ "Z"

end Instant

end Workbench
