import Workbench.Proofs.Binary64.Shortest
import Workbench.Proofs.Json.Decimal

/-!
# Numbers read back

An integer is read back as it is. A float is read back as a float, but not always the same one:
its shortest decimal is read with two roundings. `rereadFloat` says as which.

* `number_writeNumber`: what a written number is read as, with any bytes behind it that do not
  continue a number.
* `held_of_number`: the numbers that are read are those that can be written.
-/
namespace Workbench.Json

open Text (bytes)

/-! ## Written numbers -/

/-- The number as which a float is read after it has been written. -/
def rereadFloat (x : Binary64) : Binary64 :=
  (Binary64.ofDecimal x.negative (asRead x.shortest).digits (asRead x.shortest).exponent).getD x

namespace Number

/-- The numbers that can be held: integers of 64 bits and finite floats. -/
def Held : Number → Prop
  | .int n => Whole n
  | .float x => x.Finite

/-- The number as which a number is read after it has been written. -/
def reread : Number → Number
  | .int n => .int n
  | .float x => .float (rereadFloat x)

end Number

theorem shortest_bounds {x : Binary64} (hx : x.Finite) :
    x.shortest.digits < 2 ^ 63 ∧ x.shortest.exponent.natAbs ≤ 1000 ∧
      (x.shortest.digits = 0 → x.shortest.exponent = 0) := by
  cases hzero : x.isZero with
  | true =>
    have h : x.shortest = ⟨0, 0⟩ := by simp [Binary64.shortest, hzero]
    rw [h]
    decide
  | false =>
    obtain ⟨lead, h⟩ := Binary64.fits_shortest hx hzero
    obtain ⟨hlow, hhigh⟩ := h.lead_bounds hx
    have hge := h.exponent_ge
    have hle := h.exponent_le
    have hpos := h.digits_pos
    rw [Binary64.maxPower] at hhigh
    exact ⟨h.digits_lt, by omega, by omega⟩

theorem ofDecimal_asRead_isSome {x : Binary64} (hx : x.Finite) :
    (Binary64.ofDecimal x.negative (asRead x.shortest).digits
      (asRead x.shortest).exponent).isSome = true := by
  by_cases hwhole : 0 ≤ x.shortest.exponent ∧
      x.shortest.exponent + (Nat.toDigits 10 x.shortest.digits).length ≤ positionalTo + 1
  · obtain ⟨hpos, hpoint⟩ := hwhole
    rw [asRead, if_pos ⟨hpos, hpoint⟩, Option.isSome_iff_exists]
    refine Binary64.ofDecimal_isSome x.negative ?_ (.inl (show (-1 : Int) < 0 by decide))
    exact lt_of_le_of_lt (wholeSignificand_le hpos hpoint) (by decide)
  · rw [asRead, if_neg hwhole]
    exact Binary64.ofDecimal_shortest_isSome hx

theorem floatOf_asRead {x : Binary64} (hx : x.Finite) (s : List UInt8) :
    floatOf x.negative (asRead x.shortest).digits (asRead x.shortest).exponent s =
      .ok (.float (rereadFloat x), s) := by
  obtain ⟨y, hy⟩ := Option.isSome_iff_exists.mp (ofDecimal_asRead_isSome hx)
  simp only [floatOf, rereadFloat, hy, Option.getD_some]

theorem ne_of_isDigit {b c : UInt8} (hb : isDigit b = true) (hc : isDigit c = false) : b ≠ c := by
  rintro rfl
  rw [hb] at hc
  cases hc

theorem head_of_digit {b : UInt8} (h : isDigit b = true) : Head.of b = .digit := by
  rw [Head.of, if_neg (ne_of_isDigit h rfl), if_neg (ne_of_isDigit h rfl),
    if_neg (ne_of_isDigit h rfl), if_pos h]

/-- A number that was read began with a digit. -/
theorem isDigit_head_of_unsigned {negative : Bool} {s : List UInt8} {r : Number × List UInt8}
    (h : unsigned negative s = .ok r) : ∃ b tail, s = b :: tail ∧ isDigit b = true := by
  cases s with
  | nil => cases h
  | cons b tail =>
    refine ⟨b, tail, rfl, ?_⟩
    by_contra hdigit
    rw [Bool.not_eq_true] at hdigit
    have hzero : b ≠ 0x30 := by
      rintro rfl
      cases hdigit
    simp [unsigned, hzero, hdigit] at h

/-- The text of a number is a sign, if there is one, and digits that are read as the number. -/
def ReadsAs (text : List UInt8) (n : Number) : Prop :=
  ∃ negative tail, text = (if negative then [0x2D] else []) ++ tail ∧
    ∀ s, Ends s → unsigned negative (tail ++ s) = .ok (n, s)

theorem writeInt_reads {n : Int} (hn : Number.Whole n) :
    ReadsAs (bytes (writeNumber (.int n))) (.int n) := by
  obtain ⟨hlow, hhigh⟩ := hn
  have hfit : n.natAbs ≤ maxSignificand := by
    rw [maxSignificand]
    omega
  have hdigits := flatMap_digits (allDigits_toDigits n.natAbs)
  refine ⟨decide (n < 0), (Nat.toDigits 10 n.natAbs).map byteOf, ?_, fun s hs => ?_⟩
  · rw [writeNumber, Text.bytes_ofList, List.flatMap_append, hdigits]
    by_cases hneg : n < 0 <;> simp [hneg]
    rfl
  · rw [unsigned_digits (allDigits_toDigits _) (leads_toDigits _)
      (by rwa [Nat.ofDigitChars_ten_toDigits]) hs.noDigit, Nat.ofDigitChars_ten_toDigits]
    by_cases hneg : n < 0
    · rw [decide_eq_true hneg, afterDigits_negInt hs (by omega) (by omega)]
      congr 3
      omega
    · rw [decide_eq_false hneg, afterDigits_int hs]
      congr 3
      omega

/-- Zero is written as the decimal that it is, like any other float. -/
theorem writeFloat_eq (x : Binary64) : writeFloat x =
    String.ofList ((if x.negative then ['-'] else []) ++
      layoutDecimal (Nat.toDigits 10 x.shortest.digits) x.shortest.exponent) := by
  have hmagnitude : (if x.isZero then ['0', '.', '0']
        else layoutDecimal (Nat.toDigits 10 x.shortest.digits) x.shortest.exponent) =
      layoutDecimal (Nat.toDigits 10 x.shortest.digits) x.shortest.exponent := by
    cases hx : x.isZero with
    | true =>
      have h : x.shortest = ⟨0, 0⟩ := by simp [Binary64.shortest, hx]
      rw [h]
      rfl
    | false => rfl
  rw [writeFloat, hmagnitude]
  cases x.negative <;> rfl

theorem writeFloat_reads {x : Binary64} (hx : x.Finite) :
    ReadsAs (bytes (writeFloat x)) (.float (rereadFloat x)) := by
  obtain ⟨hdigits, hexponent, hzero⟩ := shortest_bounds hx
  have hle : x.shortest.digits ≤ maxSignificand := by
    rw [maxSignificand]
    omega
  refine ⟨x.negative, (layoutDecimal (Nat.toDigits 10 x.shortest.digits)
    x.shortest.exponent).flatMap String.utf8EncodeChar, ?_, fun s hs => ?_⟩
  · rw [writeFloat_eq, Text.bytes_ofList, List.flatMap_append]
    cases x.negative <;> rfl
  · rw [unsigned_layoutDecimal hle hexponent hzero hs, floatOf_asRead hx]

theorem writeNumber_reads {n : Number} (hn : n.Held) :
    ReadsAs (bytes (writeNumber n)) n.reread := by
  cases n with
  | int n => exact writeInt_reads hn
  | float x => exact writeFloat_reads hn

/-- **Numbers are read back.** The number begins with a minus sign or a digit, and reading from
there finds the number that it stands for. -/
theorem number_writeNumber {n : Number} (hn : n.Held) :
    ∃ b tail, bytes (writeNumber n) = b :: tail ∧ (b = 0x2D ∨ isDigit b = true) ∧
      ∀ s, Ends s → number (Head.of b) (b :: tail ++ s) = .ok (n.reread, s) := by
  obtain ⟨negative, text, htext, hread⟩ := writeNumber_reads hn
  cases negative with
  | true =>
    refine ⟨0x2D, text, htext, .inl rfl, fun s hs => ?_⟩
    rw [number, if_pos (by decide)]
    exact hread s hs
  | false =>
    have hnil := hread [] ends_nil
    rw [List.append_nil] at hnil
    obtain ⟨b, tail, rfl, hdigit⟩ := isDigit_head_of_unsigned hnil
    refine ⟨b, tail, htext, .inr hdigit, fun s hs => ?_⟩
    rw [number, head_of_digit hdigit, if_neg (by decide)]
    exact hread s hs

/-! ## What is read can be held -/

section Reading

variable {negative : Bool} {s rest : List UInt8} {n : Number}

theorem absorb_le {limit n : Nat} (hn : n ≤ limit) (ds : List UInt8) :
    (absorb limit n ds).1 ≤ limit := by
  induction ds generalizing n with
  | nil => exact hn
  | cons d ds ih =>
    rw [absorb]
    split
    · exact hn
    · rename_i hfit
      exact ih (not_lt.mp hfit)

theorem held_of_floatOf {significand : Nat} {exponent : Int}
    (h : floatOf negative significand exponent s = .ok (n, rest)) : n.Held := by
  unfold floatOf at h
  split at h
  · rename_i x hx
    cases h
    exact Binary64.finite_of_ofDecimal hx
  · cases h

theorem held_of_exponentPart {significand : Nat} {exponent : Int}
    (h : exponentPart negative significand exponent s = .ok (n, rest)) : n.Held := by
  unfold exponentPart at h
  dsimp only at h
  -- the sign does not matter
  generalize (if s.tail.head? = some 0x2B then (false, s.tail.tail)
    else if s.tail.head? = some 0x2D then (true, s.tail.tail) else (false, s.tail)) = sign at h
  split at h
  · cases h
  · split at h
    · split at h
      · exact held_of_floatOf h
      · split at h
        · cases h
        · cases h
          exact Binary64.finite_zero negative
    · cases h

theorem held_of_fractionPart {significand : Nat} {exponent : Int}
    (h : fractionPart negative significand exponent s = .ok (n, rest)) : n.Held := by
  unfold fractionPart at h
  dsimp only at h
  split at h
  · split at h <;> cases h
  · split at h
    · exact held_of_exponentPart h
    · exact held_of_floatOf h

theorem held_of_afterDigits {significand dropped : Nat} (hle : significand ≤ maxSignificand)
    (h : afterDigits negative significand dropped s = .ok (n, rest)) : n.Held := by
  rw [maxSignificand] at hle
  unfold afterDigits at h
  split at h
  · exact held_of_fractionPart h
  split at h
  · exact held_of_exponentPart h
  split at h
  · exact held_of_floatOf h
  split at h
  · cases h
    exact ⟨by omega, by omega⟩
  split at h
  · cases h
    exact ⟨by omega, by omega⟩
  · exact held_of_floatOf h

theorem held_of_unsigned (h : unsigned negative s = .ok (n, rest)) : n.Held := by
  unfold unsigned at h
  split at h
  · cases h
  split at h
  · split at h
    · cases h
    · exact held_of_afterDigits (Nat.zero_le _) h
  split at h
  · exact held_of_afterDigits (absorb_le (Nat.zero_le _) _) h
  · cases h

/-- What is read as a number can be held as one. -/
theorem held_of_number {head : Head} (h : number head s = .ok (n, rest)) : n.Held := by
  unfold number at h
  split at h
  · exact held_of_unsigned (s := s.tail) h
  · exact held_of_unsigned h

end Reading

end Workbench.Json
