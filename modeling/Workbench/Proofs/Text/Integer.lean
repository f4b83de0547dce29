import Workbench.Text.Integer

/-!
# Integers as they are written

`Unsigned` and `Signed` say how an integer is written, whatever its width: decimal digits, and in
front of them a sign if one likes. Both readers accept exactly the texts that write an integer of
their type.
-/
namespace Workbench.Text

/-- Decimal digits, at least one, of which `n` is the value. -/
structure Digits (cs : List Char) (n : Nat) : Prop where
  ne_nil : cs ≠ []
  isDigit : ∀ c ∈ cs, c.isDigit = true
  value : Nat.ofDigitChars 10 cs 0 = n

/-- Digits, with a plus in front if one likes. -/
inductive Unsigned : List Char → Nat → Prop
  | bare {cs : List Char} {n : Nat} : Digits cs n → Unsigned cs n
  | plus {cs : List Char} {n : Nat} : Digits cs n → Unsigned ('+' :: cs) n

/-- Digits, with any sign in front. -/
inductive Signed : List Char → Int → Prop
  | natural {cs : List Char} {n : Nat} : Unsigned cs n → Signed cs n
  | minus {cs : List Char} {n : Nat} : Digits cs n → Signed ('-' :: cs) (-n)

variable {cs : List Char} {c : Char} {n : Nat} {i : Int} {s : String}

theorem digitsValue?_eq_some_iff : digitsValue? cs = some n ↔ Digits cs n := by
  unfold digitsValue?
  constructor
  · intro h
    split at h
    · rename_i hdigits
      cases h
      exact ⟨hdigits.1, List.all_eq_true.mp hdigits.2, rfl⟩
    · cases h
  · rintro ⟨hne, hdigits, rfl⟩
    rw [if_pos ⟨hne, List.all_eq_true.mpr hdigits⟩]

/-- What begins with no digit is no digits. -/
theorem not_digits_cons (hc : c.isDigit = false) : ¬Digits (c :: cs) n := by
  intro h
  have hdigit := h.isDigit c List.mem_cons_self
  rw [hc] at hdigit
  cases hdigit

theorem unsigned_plus_iff : Unsigned ('+' :: cs) n ↔ Digits cs n := by
  constructor
  · intro h
    cases h with
    | bare h => exact absurd h (not_digits_cons rfl)
    | plus h => exact h
  · exact .plus

theorem unsigned_iff_of_ne_plus (h : ∀ rest, cs ≠ '+' :: rest) : Unsigned cs n ↔ Digits cs n := by
  constructor
  · intro hcs
    cases hcs with
    | bare hcs => exact hcs
    | plus => exact absurd rfl (h _)
  · exact .bare

theorem signed_minus_iff : Signed ('-' :: cs) i ↔ ∃ n : Nat, Digits cs n ∧ i = -n := by
  constructor
  · intro h
    cases h with
    | natural h => exact absurd ((unsigned_iff_of_ne_plus (by simp)).mp h) (not_digits_cons rfl)
    | minus h => exact ⟨_, h, rfl⟩
  · rintro ⟨n, h, rfl⟩
    exact .minus h

theorem signed_iff_of_ne_minus (h : ∀ rest, cs ≠ '-' :: rest) :
    Signed cs i ↔ ∃ n : Nat, Unsigned cs n ∧ i = n := by
  constructor
  · intro hcs
    cases hcs with
    | natural hcs => exact ⟨_, hcs, rfl⟩
    | minus => exact absurd rfl (h _)
  · rintro ⟨n, hcs, rfl⟩
    exact .natural hcs

/-- What begins with neither a sign nor a digit writes no integer. -/
theorem not_signed_cons (hc : c.isDigit = false) (hplus : c ≠ '+') (hminus : c ≠ '-') :
    ¬Signed (c :: cs) i := by
  intro h
  obtain ⟨n, hn, -⟩ := (signed_iff_of_ne_minus (by simp [hminus])).mp h
  exact not_digits_cons hc ((unsigned_iff_of_ne_plus (by simp [hplus])).mp hn)

/-! ## Readers -/

theorem ofNat_eq_some_iff {u : UInt64} :
    (if n < 0x10000000000000000 then some (UInt64.ofNat n) else none) = some u ↔ n = u.toNat := by
  constructor
  · intro h
    split at h
    · rename_i hlt
      cases h
      exact (UInt64.toNat_ofNat_of_lt' hlt).symm
    · cases h
  · rintro rfl
    rw [if_pos u.toNat_lt, UInt64.ofNat_toNat]

theorem ofInt_eq_some_iff {k : Int64} :
    (if -0x8000000000000000 ≤ i ∧ i < 0x8000000000000000 then some (Int64.ofInt i) else none) =
      some k ↔ i = k.toInt := by
  constructor
  · intro h
    split at h
    · rename_i hrange
      cases h
      exact (Int64.toInt_ofInt_of_le hrange.1 hrange.2).symm
    · cases h
  · rintro rfl
    rw [if_pos ⟨Int64.le_toInt k, Int64.toInt_lt k⟩, Int64.ofInt_toInt]

/-- An unsigned integer is read from exactly the texts that write it. -/
theorem uint64?_eq_some_iff {u : UInt64} : uint64? s = some u ↔ Unsigned s.toList u.toNat := by
  unfold uint64?
  rw [Option.bind_eq_bind, Option.bind_eq_some_iff]
  simp only [digitsValue?_eq_some_iff, ofNat_eq_some_iff, exists_eq_right]
  split
  · rename_i heq
    rw [heq, unsigned_plus_iff]
  · rename_i hplus
    exact (unsigned_iff_of_ne_plus hplus).symm

/-- A signed integer is read from exactly the texts that write it. -/
theorem int64?_eq_some_iff {k : Int64} : int64? s = some k ↔ Signed s.toList k.toInt := by
  unfold int64?
  split
  rename_i negative cs hsplit
  rw [Option.bind_eq_bind, Option.bind_eq_some_iff]
  simp only [digitsValue?_eq_some_iff, ofInt_eq_some_iff]
  split at hsplit
  · rename_i heq
    cases hsplit
    rw [heq, signed_iff_of_ne_minus (by simp)]
    simp [unsigned_plus_iff, eq_comm]
  · rename_i heq
    cases hsplit
    rw [heq, signed_minus_iff]
    simp [eq_comm]
  · rename_i hplus hminus
    cases hsplit
    rw [signed_iff_of_ne_minus hminus]
    simp [unsigned_iff_of_ne_plus hplus, eq_comm]

/-! ## The notation of an integer -/

theorem toList_toString (i : Int) :
    (toString i).toList = (if i < 0 then ['-'] else []) ++ Nat.toDigits 10 i.natAbs := by
  rw [Int.toString_eq_repr]
  cases i with
  | ofNat n =>
    have hnonneg : ¬Int.ofNat n < 0 := Int.not_lt.mpr (Int.natCast_nonneg n)
    rw [if_neg hnonneg]
    exact Nat.toList_repr
  | negSucc n =>
    rw [if_pos (Int.negSucc_lt_zero n)]
    show ("-" ++ Nat.repr (n + 1)).toList = '-' :: Nat.toDigits 10 (n + 1)
    rw [String.toList_append, Nat.toList_repr]
    rfl

theorem digits_toDigits_iff {k : Nat} : Digits (Nat.toDigits 10 n) k ↔ k = n := by
  constructor
  · intro h
    exact h.value.symm.trans Nat.ofDigitChars_ten_toDigits
  · rintro rfl
    exact ⟨Nat.toDigits_ne_nil, fun c => Nat.isDigit_of_mem_toDigits (by decide) (by decide),
      Nat.ofDigitChars_ten_toDigits⟩

/-- Digits do not begin with a sign. -/
theorem toDigits_ne_cons (hc : c.isDigit = false) : Nat.toDigits 10 n ≠ c :: cs := by
  intro h
  have hdigits : Digits (Nat.toDigits 10 n) n := digits_toDigits_iff.mpr rfl
  exact not_digits_cons hc (h ▸ hdigits)

theorem signed_toString_iff {k : Int} : Signed (toString i).toList k ↔ k = i := by
  rw [toList_toString]
  by_cases hneg : i < 0
  · rw [if_pos hneg, List.singleton_append, signed_minus_iff]
    simp only [digits_toDigits_iff, exists_eq_left]
    omega
  · rw [if_neg hneg, List.nil_append, signed_iff_of_ne_minus fun _ => toDigits_ne_cons rfl]
    simp only [unsigned_iff_of_ne_plus fun _ => toDigits_ne_cons rfl, digits_toDigits_iff,
      exists_eq_left]
    omega

theorem unsigned_toString_iff : Unsigned (toString i).toList n ↔ (n : Int) = i := by
  rw [toList_toString]
  by_cases hneg : i < 0
  · have hminus : ¬Digits ('-' :: Nat.toDigits 10 i.natAbs) n := not_digits_cons rfl
    rw [if_pos hneg, List.singleton_append, unsigned_iff_of_ne_plus (by simp)]
    simp only [hminus, false_iff]
    omega
  · rw [if_neg hneg, List.nil_append,
      unsigned_iff_of_ne_plus fun _ => toDigits_ne_cons rfl, digits_toDigits_iff]
    omega

end Workbench.Text
