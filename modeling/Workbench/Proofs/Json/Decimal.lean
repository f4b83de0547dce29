import Mathlib.Tactic.Ring
import Workbench.Json.Numeral
import Workbench.Json.Printer
import Workbench.Proofs.Json.Token
import Workbench.Proofs.Text.Blank

/-!
# Decimals read back

A decimal is laid out in one of five notations. Of the text that any of them makes, reading finds
the significand digit by digit and corrects the exponent by the digits behind the point.

* `unsigned_digits`, `exponentPart_digits`: digits are read as the number that they stand for, up to
  the first byte that is no digit.
* `unsigned_layoutDecimal`: however a decimal is laid out, its digits and its exponent are found.
-/
namespace Workbench.Json

open Text (bytes)

/-! ## Digits -/

def byteOf (c : Char) : UInt8 := UInt8.ofNat c.toNat

def AllDigits (cs : List Char) : Prop := ∀ c ∈ cs, c.isDigit = true

theorem digit_bounds {c : Char} (h : c.isDigit = true) : 48 ≤ c.toNat ∧ c.toNat ≤ 57 := by
  simpa [Char.isDigit, UInt32.le_iff_toNat_le] using h

theorem not_blank_of_isDigit {c : Char} (h : c.isDigit = true) : Text.isBlank c = false :=
  Text.not_blank_of_isAlphanum (by simp [Char.isAlphanum, h])

theorem toNat_byteOf {c : Char} (h : c.isDigit = true) : (byteOf c).toNat = c.toNat := by
  have := digit_bounds h
  rw [byteOf, UInt8.toNat_ofNat']
  omega

theorem isDigit_byteOf {c : Char} (h : c.isDigit = true) : isDigit (byteOf c) = true := by
  have := digit_bounds h
  simpa [isDigit, UInt8.le_iff_toNat_le, toNat_byteOf h] using this

theorem digitValue_byteOf {c : Char} (h : c.isDigit = true) :
    digitValue (byteOf c) = c.toNat - '0'.toNat := by
  rw [digitValue, toNat_byteOf h]
  rfl

theorem flatMap_digits {cs : List Char} (h : AllDigits cs) :
    cs.flatMap String.utf8EncodeChar = cs.map byteOf := by
  induction cs with
  | nil => rfl
  | cons c cs ih =>
    obtain ⟨hc, hcs⟩ := List.forall_mem_cons.mp h
    have := digit_bounds hc
    rw [List.flatMap_cons, ih hcs, Text.utf8EncodeChar_of_ascii (by omega)]
    rfl

theorem allDigits_toDigits (n : Nat) : AllDigits (Nat.toDigits 10 n) :=
  fun _ => Nat.isDigit_of_mem_toDigits (by decide) (by decide)

theorem allDigits_zeros (n : Nat) : AllDigits (List.replicate n '0') := fun c hc => by
  rw [List.eq_of_mem_replicate hc]
  rfl

/-- Digits behind which none follows. -/
def NoDigit (s : List UInt8) : Prop := ∀ b ∈ s.head?, isDigit b = false

theorem digits_append {cs : List Char} (h : AllDigits cs) {s : List UInt8} (hs : NoDigit s) :
    digits (cs.map byteOf ++ s) = (cs.map byteOf, s) := by
  have hall : ∀ b ∈ cs.map byteOf, isDigit b = true := by
    simp only [List.mem_map, forall_exists_index, and_imp]
    rintro b c hc rfl
    exact isDigit_byteOf (h c hc)
  have htake : s.takeWhile isDigit = [] := by
    cases s with
    | nil => rfl
    | cons b s => simp [hs b rfl]
  have hdrop : s.dropWhile isDigit = s := by
    cases s with
    | nil => rfl
    | cons b s => simp [hs b rfl]
  rw [digits, List.takeWhile_append_of_pos hall, List.dropWhile_append_of_pos hall, htake, hdrop,
    List.append_nil]

theorem le_ofDigitChars (cs : List Char) (n : Nat) : n ≤ Nat.ofDigitChars 10 cs n := by
  induction cs generalizing n with
  | nil => exact le_rfl
  | cons c cs ih =>
    rw [Nat.ofDigitChars_cons]
    exact le_trans (by omega) (ih _)

/-- Digits are taken in as long as their number fits. -/
theorem absorb_digits {cs : List Char} (h : AllDigits cs) {limit n : Nat}
    (hle : Nat.ofDigitChars 10 cs n ≤ limit) :
    absorb limit n (cs.map byteOf) = (Nat.ofDigitChars 10 cs n, []) := by
  induction cs generalizing n with
  | nil => rfl
  | cons c cs ih =>
    obtain ⟨hc, hcs⟩ := List.forall_mem_cons.mp h
    rw [Nat.ofDigitChars_cons, mul_comm 10 n] at hle ⊢
    have hfit := (le_ofDigitChars cs _).trans hle
    rw [List.map_cons, absorb, digitValue_byteOf hc, if_neg (not_lt.mpr hfit), ih hcs hle]

/-! ## Parts of numbers -/

/-- What may stand behind a number. -/
def Ends (s : List UInt8) : Prop :=
  ∀ b ∈ s.head?, isDigit b = false ∧ b ≠ 0x2E ∧ isExponentMark (some b) = false

theorem ends_nil : Ends [] := by simp [Ends]

theorem Ends.noDigit {s : List UInt8} (h : Ends s) : NoDigit s := fun b hb => (h b hb).1

theorem Ends.head_ne_point {s : List UInt8} (h : Ends s) : s.head? ≠ some 0x2E :=
  fun hb => (h _ hb).2.1 rfl

theorem Ends.not_exponentMark {s : List UInt8} (h : Ends s) : isExponentMark s.head? = false := by
  cases s with
  | nil => rfl
  | cons b s => exact (h b rfl).2.2

/-- The digits before the point: a single zero, or no zero in front. -/
def Leads (cs : List Char) : Prop :=
  cs = ['0'] ∨ ∃ c tail, cs = c :: tail ∧ c ≠ '0'

/-- Digits without a zero in front are taken in one after the other. -/
theorem unsigned_cons {c : Char} {tail : List Char} (h : AllDigits (c :: tail)) (hc : c ≠ '0')
    {s : List UInt8} (hs : NoDigit s) (negative : Bool) :
    unsigned negative ((c :: tail).map byteOf ++ s) =
      afterDigits negative (absorb maxSignificand 0 ((c :: tail).map byteOf)).1
        (absorb maxSignificand 0 ((c :: tail).map byteOf)).2.length s := by
  have hdigit : c.isDigit = true := h c (by simp)
  have hne : byteOf c ≠ 0x30 := by
    intro heq
    refine hc (Char.ext (UInt32.toNat_inj.mp ?_))
    have := toNat_byteOf hdigit
    rw [heq] at this
    exact this.symm
  have hdigits := digits_append h hs
  rw [List.map_cons, List.cons_append] at hdigits
  rw [List.map_cons, List.cons_append, unsigned]
  simp only [hne, if_false, isDigit_byteOf hdigit, if_true, hdigits]

theorem unsigned_digits {cs : List Char} (h : AllDigits cs) (hlead : Leads cs)
    (hle : Nat.ofDigitChars 10 cs 0 ≤ maxSignificand) {s : List UInt8} (hs : NoDigit s)
    (negative : Bool) :
    unsigned negative (cs.map byteOf ++ s) =
      afterDigits negative (Nat.ofDigitChars 10 cs 0) 0 s := by
  obtain rfl | ⟨c, tail, rfl, hc⟩ := hlead
  · have hnext : (s.head?.map isDigit).getD false = false := by
      cases s with
      | nil => rfl
      | cons b s => exact hs b rfl
    show unsigned negative (0x30 :: s) = _
    simp [unsigned, hnext, Nat.ofDigitChars]
  · rw [unsigned_cons h hc hs, absorb_digits h hle, List.length_nil]

theorem afterDigits_int {s : List UInt8} (hs : Ends s) (n : Nat) :
    afterDigits false n 0 s = .ok (.int n, s) := by
  simp [afterDigits, hs.head_ne_point, hs.not_exponentMark]

theorem afterDigits_negInt {s : List UInt8} (hs : Ends s) {n : Nat} (hpos : 0 < n)
    (hle : n ≤ 0x8000000000000000) : afterDigits true n 0 s = .ok (.int (-n), s) := by
  simp [afterDigits, hs.head_ne_point, hs.not_exponentMark, hpos, hle]

/-- Digits behind a point shift the exponent. -/
theorem afterDigits_fraction {cs : List Char} (h : AllDigits cs) (hne : cs ≠ []) {n : Nat}
    (hle : Nat.ofDigitChars 10 cs n ≤ maxSignificand) {s : List UInt8} (hs : NoDigit s)
    (negative : Bool) :
    afterDigits negative n 0 (0x2E :: (cs.map byteOf ++ s)) =
      if isExponentMark s.head? then
        exponentPart negative (Nat.ofDigitChars 10 cs n) (-cs.length) s
      else floatOf negative (Nat.ofDigitChars 10 cs n) (-cs.length) s := by
  rw [afterDigits, List.head?_cons, if_pos rfl, fractionPart, List.tail_cons, digits_append h hs]
  simp [absorb_digits h hle, hne]

theorem exponentPart_digits {cs : List Char} (h : AllDigits cs) (hne : cs ≠ [])
    (hle : Nat.ofDigitChars 10 cs 0 ≤ maxExponent) {s : List UInt8} (hs : NoDigit s)
    (negative down : Bool) (n : Nat) (e : Int) (mark : UInt8) :
    exponentPart negative n e
        (mark :: (if down then 0x2D else 0x2B) :: (cs.map byteOf ++ s)) =
      floatOf negative n
        (if down then e - (Nat.ofDigitChars 10 cs 0 : Nat)
          else e + (Nat.ofDigitChars 10 cs 0 : Nat)) s := by
  obtain ⟨c, tail, rfl⟩ := List.exists_cons_of_ne_nil hne
  have hdigits := digits_append h hs
  have habsorb := absorb_digits h hle
  rw [List.map_cons, List.cons_append] at hdigits
  rw [List.map_cons] at habsorb
  have hdigit := isDigit_byteOf (h c (by simp))
  cases down <;>
    simp [exponentPart, hdigit, hdigits, habsorb]

/-- The digits of a written exponent: at least two. -/
def exponentDigits (e : Int) : List Char :=
  let digits := Nat.toDigits 10 e.natAbs
  if digits.length < 2 then '0' :: digits else digits

theorem allDigits_exponentDigits (e : Int) : AllDigits (exponentDigits e) := by
  unfold exponentDigits
  dsimp only
  split
  · exact List.forall_mem_cons.mpr ⟨by decide, allDigits_toDigits _⟩
  · exact allDigits_toDigits _

theorem exponentDigits_ne_nil (e : Int) : exponentDigits e ≠ [] := by
  unfold exponentDigits
  dsimp only
  split
  · simp
  · exact Nat.toDigits_ne_nil

theorem ofDigitChars_exponentDigits (e : Int) :
    Nat.ofDigitChars 10 (exponentDigits e) 0 = e.natAbs := by
  unfold exponentDigits
  dsimp only
  split
  · rw [Nat.ofDigitChars_cons]
    exact Nat.ofDigitChars_ten_toDigits
  · exact Nat.ofDigitChars_ten_toDigits

theorem flatMap_writeExponent (e : Int) :
    (writeExponent e).flatMap String.utf8EncodeChar =
      0x65 :: (if e < 0 then 0x2D else 0x2B) :: (exponentDigits e).map byteOf := by
  rw [← flatMap_digits (allDigits_exponentDigits e), writeExponent, exponentDigits,
    List.flatMap_cons, List.flatMap_cons]
  split <;> rfl

/-- A written exponent is added to the one from the fraction. -/
theorem exponentPart_writeExponent {x : Int} (hx : x.natAbs ≤ maxExponent) {s : List UInt8}
    (hs : NoDigit s) (negative : Bool) (n : Nat) (e : Int) :
    exponentPart negative n e ((writeExponent x).flatMap String.utf8EncodeChar ++ s) =
      floatOf negative n (e + x) s := by
  have h := exponentPart_digits (allDigits_exponentDigits x) (exponentDigits_ne_nil x)
    (by rwa [ofDigitChars_exponentDigits]) hs negative (decide (x < 0)) n e 0x65
  rw [ofDigitChars_exponentDigits] at h
  simp only [decide_eq_true_eq] at h
  rw [flatMap_writeExponent, List.cons_append, List.cons_append, h]
  congr 1
  split <;> omega

/-! ## Decimals -/

/-- The significand and the exponent that are found in the text of a decimal. Only with all digits
before the point is there one more, the zero behind it. -/
def asRead (d : Binary64.Decimal) : Binary64.Decimal :=
  if 0 ≤ d.exponent ∧ d.exponent + (Nat.toDigits 10 d.digits).length ≤ positionalTo + 1 then
    ⟨d.digits * 10 ^ (d.exponent.toNat + 1), -1⟩
  else d

/-- No number but zero is written with a zero in front. -/
theorem toDigits_eq_cons {n : Nat} (hn : n ≠ 0) :
    ∃ c tail, Nat.toDigits 10 n = c :: tail ∧ c ≠ '0' := by
  induction n using Nat.strongRecOn with
  | ind n ih =>
    by_cases h : n < 10
    · have hdigit : ∀ d < 10, d ≠ 0 → Nat.digitChar d ≠ '0' := by decide
      exact ⟨_, [], Nat.toDigits_of_lt_base h, hdigit n h hn⟩
    · obtain ⟨c, tail, heq, hc⟩ := ih (n / 10) (by omega) (by omega)
      rw [Nat.toDigits_of_base_le (by decide) (not_lt.mp h), heq]
      exact ⟨c, _, rfl, hc⟩

theorem leads_toDigits (n : Nat) : Leads (Nat.toDigits 10 n) := by
  by_cases hn : n = 0
  · exact .inl (by rw [hn, Nat.toDigits_zero])
  · exact .inr (toDigits_eq_cons hn)

theorem noDigit_point (s : List UInt8) : NoDigit (0x2E :: s) := by
  rintro b ⟨⟩
  rfl

theorem flatMap_pointed {whole fraction : List Char} (h : AllDigits (whole ++ fraction)) :
    (whole ++ '.' :: fraction).flatMap String.utf8EncodeChar =
      whole.map byteOf ++ 0x2E :: fraction.map byteOf := by
  obtain ⟨hwhole, hfraction⟩ := List.forall_mem_append.mp h
  rw [List.flatMap_append, List.flatMap_cons, flatMap_digits hwhole, flatMap_digits hfraction]
  rfl

/-- Digits with a point among them. -/
theorem unsigned_pointed {whole fraction : List Char} (h : AllDigits (whole ++ fraction))
    (hlead : Leads whole) (hne : fraction ≠ [])
    (hle : Nat.ofDigitChars 10 (whole ++ fraction) 0 ≤ maxSignificand) {s : List UInt8}
    (hs : NoDigit s) (negative : Bool) :
    unsigned negative ((whole ++ '.' :: fraction).flatMap String.utf8EncodeChar ++ s) =
      if isExponentMark s.head? then
        exponentPart negative (Nat.ofDigitChars 10 (whole ++ fraction) 0) (-fraction.length) s
      else floatOf negative (Nat.ofDigitChars 10 (whole ++ fraction) 0) (-fraction.length) s := by
  obtain ⟨hwhole, hfraction⟩ := List.forall_mem_append.mp h
  rw [Nat.ofDigitChars_append] at hle ⊢
  rw [flatMap_pointed h, List.append_assoc, List.cons_append,
    unsigned_digits hwhole hlead ((le_ofDigitChars fraction _).trans hle) (noDigit_point _),
    afterDigits_fraction hfraction hne hle hs]

section Layout

variable {n : Nat} {k : Int} {s : List UInt8}

/-- The digits before the point and the zero behind it fit. -/
theorem wholeSignificand_le (hk : 0 ≤ k) (hpoint : k + (Nat.toDigits 10 n).length ≤ 16) :
    n * 10 ^ (k.toNat + 1) ≤ maxSignificand := by
  have hlen : (Nat.toDigits 10 n).length ≤ 16 - k.toNat := by omega
  have hpos : 0 < 16 - k.toNat := lt_of_lt_of_le Nat.length_toDigits_pos hlen
  calc n * 10 ^ (k.toNat + 1) ≤ 10 ^ (16 - k.toNat) * 10 ^ (k.toNat + 1) :=
        Nat.mul_le_mul_right _ ((Nat.length_toDigits_le_iff (by decide) hpos).mp hlen).le
    _ = 10 ^ 17 := by
        rw [← pow_add]
        congr 1
        omega
    _ ≤ maxSignificand := by decide

/-- All digits stand before the point. -/
theorem unsigned_whole (hzero : n = 0 → k = 0) (hk : 0 ≤ k)
    (hpoint : k + (Nat.toDigits 10 n).length ≤ 16) (hs : Ends s) (negative : Bool) :
    unsigned negative ((Nat.toDigits 10 n ++ List.replicate k.toNat '0' ++ ['.', '0']).flatMap
        String.utf8EncodeChar ++ s) =
      floatOf negative (n * 10 ^ (k.toNat + 1)) (-1) s := by
  have hwhole : AllDigits (Nat.toDigits 10 n ++ List.replicate k.toNat '0' ++ ['0']) :=
    List.forall_mem_append.mpr
      ⟨List.forall_mem_append.mpr ⟨allDigits_toDigits n, allDigits_zeros _⟩, by simp⟩
  have hlead : Leads (Nat.toDigits 10 n ++ List.replicate k.toNat '0') := by
    by_cases hn : n = 0
    · rw [hn, hzero hn, Nat.toDigits_zero]
      exact .inl rfl
    · obtain ⟨c, tail, heq, hc⟩ := toDigits_eq_cons hn
      rw [heq]
      exact .inr ⟨c, _, rfl, hc⟩
  have hvalue : Nat.ofDigitChars 10 (Nat.toDigits 10 n ++ List.replicate k.toNat '0' ++ ['0']) 0 =
      n * 10 ^ (k.toNat + 1) := by
    rw [Nat.ofDigitChars_append, Nat.ofDigitChars_append, Nat.ofDigitChars_ten_toDigits,
      Nat.ofDigitChars_replicate_zero, pow_succ]
    simp only [Nat.ofDigitChars_cons, Nat.ofDigitChars_nil, Char.reduceToNat, Nat.sub_self,
      Nat.add_zero]
    ring
  have hfit := wholeSignificand_le hk hpoint
  rw [unsigned_pointed hwhole hlead (by simp) (by rwa [hvalue]) hs.noDigit, hs.not_exponentMark,
    hvalue]
  rfl

/-- The point stands among the digits. -/
theorem unsigned_split {p : Nat} (hn : n ≤ maxSignificand) (hp : 0 < p)
    (hlen : p < (Nat.toDigits 10 n).length) (hs : NoDigit s) (negative : Bool) :
    unsigned negative (((Nat.toDigits 10 n).take p ++ '.' :: (Nat.toDigits 10 n).drop p).flatMap
        String.utf8EncodeChar ++ s) =
      if isExponentMark s.head? then
        exponentPart negative n (-((Nat.toDigits 10 n).length - p : Nat)) s
      else floatOf negative n (-((Nat.toDigits 10 n).length - p : Nat)) s := by
  have hlead : Leads ((Nat.toDigits 10 n).take p) := by
    have hn : n ≠ 0 := by
      rintro rfl
      simp at hlen
      omega
    obtain ⟨c, tail, heq, hc⟩ := toDigits_eq_cons hn
    obtain ⟨q, rfl⟩ := Nat.exists_eq_succ_of_ne_zero hp.ne'
    exact .inr ⟨c, tail.take q, by rw [heq, List.take_succ_cons], hc⟩
  have hjoin := List.take_append_drop p (Nat.toDigits 10 n)
  have hvalue : Nat.ofDigitChars 10
      ((Nat.toDigits 10 n).take p ++ (Nat.toDigits 10 n).drop p) 0 = n := by
    rw [hjoin, Nat.ofDigitChars_ten_toDigits]
  rw [unsigned_pointed (by rw [hjoin]; exact allDigits_toDigits n) hlead
    (by rw [ne_eq, List.drop_eq_nil_iff]; omega) (by rwa [hvalue]) hs, hvalue, List.length_drop]

/-- All digits stand behind the point. -/
theorem unsigned_below {zeros : Nat} (hn : n ≤ maxSignificand) (hs : Ends s) (negative : Bool) :
    unsigned negative (('0' :: '.' :: (List.replicate zeros '0' ++ Nat.toDigits 10 n)).flatMap
        String.utf8EncodeChar ++ s) =
      floatOf negative n (-(zeros + (Nat.toDigits 10 n).length : Nat)) s := by
  have hall : AllDigits (['0'] ++ (List.replicate zeros '0' ++ Nat.toDigits 10 n)) :=
    List.forall_mem_append.mpr
      ⟨by simp, List.forall_mem_append.mpr ⟨allDigits_zeros _, allDigits_toDigits n⟩⟩
  have hvalue : Nat.ofDigitChars 10 (['0'] ++ (List.replicate zeros '0' ++ Nat.toDigits 10 n)) 0 =
      n := by
    rw [Nat.ofDigitChars_append, Nat.ofDigitChars_append]
    simp only [Nat.ofDigitChars_cons, Nat.ofDigitChars_nil, Nat.ofDigitChars_replicate_zero]
    exact Nat.ofDigitChars_ten_toDigits
  have h := unsigned_pointed hall (.inl rfl) (by simp) (by rwa [hvalue]) hs.noDigit negative
  rw [hs.not_exponentMark, hvalue, List.length_append, List.length_replicate] at h
  exact h

theorem head_writeExponent (e : Int) (s : List UInt8) :
    ((writeExponent e).flatMap String.utf8EncodeChar ++ s).head? = some 0x65 := by
  rw [flatMap_writeExponent]
  rfl

theorem noDigit_writeExponent (e : Int) (s : List UInt8) :
    NoDigit ((writeExponent e).flatMap String.utf8EncodeChar ++ s) := by
  intro b hb
  rw [head_writeExponent] at hb
  cases hb
  rfl

/-- No point, and an exponent. -/
theorem unsigned_scaled (hn : n ≤ maxSignificand) (hk : k.natAbs ≤ maxExponent) (hs : NoDigit s)
    (negative : Bool) :
    unsigned negative ((Nat.toDigits 10 n ++ writeExponent k).flatMap String.utf8EncodeChar ++ s) =
      floatOf negative n k s := by
  rw [List.flatMap_append, flatMap_digits (allDigits_toDigits n), List.append_assoc,
    unsigned_digits (allDigits_toDigits n) (leads_toDigits n)
      (by rwa [Nat.ofDigitChars_ten_toDigits]) (noDigit_writeExponent k s),
    Nat.ofDigitChars_ten_toDigits, afterDigits, head_writeExponent, if_neg (by decide),
    if_pos (by decide), exponentPart_writeExponent hk hs]
  congr 1
  exact zero_add k

/-- A point behind the first digit, and an exponent. -/
theorem unsigned_pointScaled (hn : n ≤ maxSignificand) (hlen : 1 < (Nat.toDigits 10 n).length)
    (hk : (k + (Nat.toDigits 10 n).length - 1).natAbs ≤ maxExponent) (hs : NoDigit s)
    (negative : Bool) :
    unsigned negative (((Nat.toDigits 10 n).take 1 ++ '.' :: (Nat.toDigits 10 n).drop 1 ++
        writeExponent (k + (Nat.toDigits 10 n).length - 1)).flatMap String.utf8EncodeChar ++ s) =
      floatOf negative n k s := by
  rw [List.flatMap_append, List.append_assoc,
    unsigned_split hn one_pos hlen (noDigit_writeExponent _ s), head_writeExponent,
    if_pos (by decide), exponentPart_writeExponent hk hs]
  congr 1
  omega

end Layout

/-- **Decimals are found in their notation.** Whatever the notation, reading finds the digits and
the exponent. -/
theorem unsigned_layoutDecimal {n : Nat} {k : Int} (hn : n ≤ maxSignificand)
    (hk : k.natAbs ≤ 1000) (hzero : n = 0 → k = 0) {s : List UInt8} (hs : Ends s)
    (negative : Bool) :
    unsigned negative ((layoutDecimal (Nat.toDigits 10 n) k).flatMap String.utf8EncodeChar ++ s) =
      floatOf negative (asRead ⟨n, k⟩).digits (asRead ⟨n, k⟩).exponent s := by
  have hpos : 0 < (Nat.toDigits 10 n).length := Nat.length_toDigits_pos
  have hlen : (Nat.toDigits 10 n).length ≤ 20 :=
    (Nat.length_toDigits_le_iff (by decide) (by decide)).mpr (lt_of_le_of_lt hn (by decide))
  have hasRead (h : ¬ (0 ≤ k ∧ k + (Nat.toDigits 10 n).length ≤ 16)) : asRead ⟨n, k⟩ = ⟨n, k⟩ :=
    if_neg h
  unfold layoutDecimal
  dsimp only
  split
  · rename_i hposition
    simp only [positionalFrom, positionalTo] at hposition
    split
    · rename_i hwhole
      rw [unsigned_whole hzero hwhole hposition.2 hs, asRead, if_pos ⟨hwhole, hposition.2⟩]
    · rename_i hfraction
      rw [hasRead (fun h => hfraction h.1)]
      split
      · rename_i hsplit
        rw [unsigned_split hn (by omega) (by omega) hs.noDigit, hs.not_exponentMark,
          if_neg (by decide)]
        congr 1
        dsimp only
        omega
      · rename_i hbelow
        rw [unsigned_below hn hs]
        congr 1
        dsimp only
        omega
  · rename_i hposition
    simp only [positionalFrom, positionalTo] at hposition
    rw [hasRead (by omega)]
    split
    · rename_i d hsingle
      have h := unsigned_scaled (k := k) hn (hk.trans (by decide)) hs.noDigit negative
      rw [hsingle] at h
      rw [hsingle, List.length_singleton, Nat.cast_one, add_sub_cancel_right]
      exact h
    · rename_i hseveral
      have hlong : 1 < (Nat.toDigits 10 n).length := by
        by_contra hshort
        obtain ⟨d, hd⟩ := List.length_eq_one_iff.mp (by omega : (Nat.toDigits 10 n).length = 1)
        exact hseveral d hd
      exact unsigned_pointScaled hn hlong (by rw [maxExponent]; omega) hs.noDigit negative

end Workbench.Json
