import Workbench.Proofs.Binary64.Nearest

/-!
# Reading decimals

A decimal is read in two roundings, one of its significand and one of the product or quotient by a
power of ten, which has been rounded itself.

* `ofDecimal_isSome`: the result is in range if the exponent is negative, and otherwise as long as
  the decimal stays below `overflow` with a `margin` for the roundings.
* `finite_of_ofDecimal`: what is read is finite.
-/
namespace Workbench.Binary64

/-! ## Products and quotients -/

/-- A whole number scaled by a power of two, as the quotient that `mul` and `div` make of it. -/
theorem cast_shifted (n : Nat) (e : Int) :
    ((n * Nat.pow 2 e.toNat : Nat) : ℚ) / (Nat.pow 2 (-e).toNat : Nat) = n * 2 ^ e := by
  have h := cast_scaled n 1 (-e)
  rw [neg_neg, one_mul, Nat.cast_one, div_one, zpow_neg, div_inv_eq_mul] at h
  exact h

theorem pow_two_ne_zero (k : Nat) : Nat.pow 2 k ≠ 0 :=
  (Nat.pow_pos (by decide)).ne'

theorem exists_mul {x y : Binary64} (h : x.value * y.value < overflow) :
    ∃ z, mul x y = some z ∧ Rounded (x.value * y.value) z := by
  have hquot : ((x.mantissa * y.mantissa * Nat.pow 2 (x.exponent + y.exponent).toNat : Nat) : ℚ) /
      (Nat.pow 2 (-(x.exponent + y.exponent)).toNat : Nat) = x.value * y.value := by
    rw [cast_shifted, zpow_add₀ two_ne_zero, value, value]
    push_cast
    ring
  rw [← hquot] at h ⊢
  exact rounded_nearest _ _ (pow_two_ne_zero _) h

theorem finite_of_mul {x y z : Binary64} (h : mul x y = some z) : Finite z :=
  finite_of_nearest (pow_two_ne_zero _) h

theorem mantissa_ne_zero {x : Binary64} (h : 0 < x.value) : x.mantissa ≠ 0 := by
  intro hm
  simp [value, hm] at h

theorem exists_div {x y : Binary64} (hy : 0 < y.value) (h : x.value / y.value < overflow) :
    ∃ z, div x y = some z ∧ Rounded (x.value / y.value) z := by
  have hm := mantissa_ne_zero hy
  have hquot : ((x.mantissa * Nat.pow 2 (x.exponent - y.exponent).toNat : Nat) : ℚ) /
      (y.mantissa * Nat.pow 2 (-(x.exponent - y.exponent)).toNat : Nat) = x.value / y.value := by
    rw [Nat.cast_mul y.mantissa, mul_comm (y.mantissa : ℚ), ← div_div, cast_shifted,
      zpow_sub₀ two_ne_zero, value, value]
    have : (y.mantissa : ℚ) ≠ 0 := by exact_mod_cast hm
    field_simp
  rw [← hquot] at h ⊢
  exact rounded_nearest _ _ (Nat.mul_ne_zero hm (pow_two_ne_zero _)) h

theorem finite_of_div {x y z : Binary64} (hy : 0 < y.value) (h : div x y = some z) : Finite z :=
  finite_of_nearest (Nat.mul_ne_zero (mantissa_ne_zero hy) (pow_two_ne_zero _)) h

/-! ## Decimals -/

/-- The range ends between the powers of ten with the exponents 308 and 309. -/
theorem overflow_bounds : (10 : ℚ) ^ maxPower < overflow ∧ overflow < 10 ^ (maxPower + 1) := by
  have hlow : 10 ^ maxPower * 2 < (2 ^ 54 - 1) * 2 ^ 971 := by decide +kernel
  have hhigh : (2 ^ 54 - 1) * 2 ^ 971 < 10 ^ (maxPower + 1) * 2 := by decide +kernel
  have hzpow : (2 : ℚ) ^ (971 : ℤ) = 2 ^ 971 := zpow_natCast 2 971
  replace hlow := Nat.cast_lt (α := ℚ) |>.mpr hlow
  replace hhigh := Nat.cast_lt (α := ℚ) |>.mpr hhigh
  simp only [Nat.cast_mul, Nat.cast_pow, Nat.cast_ofNat] at hlow hhigh
  rw [overflow, hzpow]
  generalize (2 : ℚ) ^ 971 = top at *
  norm_num at hlow hhigh
  constructor <;> linarith

theorem ten_pow_lt_overflow {k : Nat} (hk : k ≤ maxPower) : (10 : ℚ) ^ k < overflow :=
  (pow_le_pow_right₀ (by norm_num) hk).trans_lt overflow_bounds.1

theorem exists_powerOfTen {k : Nat} (hk : k ≤ maxPower) :
    ∃ p, powerOfTen k = some p ∧ |p.value - 10 ^ k| ≤ 10 ^ k / 2 ^ 53 := by
  have hquot : ((Nat.pow 10 k : Nat) : ℚ) / (1 : Nat) = 10 ^ k := by simp
  obtain ⟨p, hp, hround⟩ := rounded_nearest false (Nat.pow 10 k) one_ne_zero
    (by rw [hquot]; exact ten_pow_lt_overflow hk)
  rw [hquot] at hround
  exact ⟨p, hp, hround.abs_sub_le (one_le_pow₀ (by norm_num))⟩

/-- The powers of ten by which numbers are divided are at least five after rounding. -/
theorem exists_divisor {k : Nat} (h1 : 1 ≤ k) (hk : k ≤ maxPower) :
    ∃ p, powerOfTen k = some p ∧ 5 ≤ p.value := by
  obtain ⟨p, hp, herr⟩ := exists_powerOfTen hk
  refine ⟨p, hp, ?_⟩
  have hten : (10 : ℚ) ^ 1 ≤ 10 ^ k := pow_le_pow_right₀ (by norm_num) h1
  have := (abs_le.mp herr).1
  linarith

/-- Significands and all that comes from them by division stay below this. -/
def significandBound : ℚ := 2 ^ 65

theorem exists_div_powerOfTen {x : Binary64} (hx : x.value ≤ significandBound) {k : Nat}
    (h1 : 1 ≤ k) (hk : k ≤ maxPower) :
    ∃ p z, powerOfTen k = some p ∧ div x p = some z ∧ z.value ≤ significandBound := by
  obtain ⟨p, hp, hfive⟩ := exists_divisor h1 hk
  have hpos : 0 < p.value := by linarith
  have hquot : x.value / p.value ≤ significandBound / 5 := by
    gcongr
    exact x.value_nonneg.trans hx
  have hbound : significandBound / 5 < overflow := by
    have htop : (2 : ℚ) ^ (13 : ℤ) ≤ 2 ^ (971 : ℤ) :=
      zpow_le_zpow_right₀ one_le_two (by decide)
    rw [significandBound, overflow]
    generalize (2 : ℚ) ^ (971 : ℤ) = top at *
    norm_num at htop
    linarith
  obtain ⟨z, hz, hround⟩ := exists_div hpos (hquot.trans_lt hbound)
  refine ⟨p, z, hp, hz, ?_⟩
  have := hround.value_le (div_nonneg x.value_nonneg hpos.le)
  have hroom : 2 * (significandBound / 5) + 1 ≤ significandBound := by
    norm_num [significandBound]
  linarith

theorem exists_lower (n : Nat) {x : Binary64} (hx : x.value ≤ significandBound) :
    ∃ y, lower n x = some y ∧ y.value ≤ significandBound := by
  induction n generalizing x with
  | zero => exact ⟨x, rfl, hx⟩
  | succ n ih =>
    by_cases hzero : x.isZero = true
    · exact ⟨x, by simp [lower, hzero], hx⟩
    · obtain ⟨p, z, hp, hz, hle⟩ := exists_div_powerOfTen hx (by decide) le_rfl
      obtain ⟨y, hy, hrest⟩ := ih hle
      exact ⟨y, by simp [lower, hzero, hp, hz, hy], hrest⟩

/-- The exponent of the last division, after the divisions by the largest power. -/
theorem lastExponent_bounds {e : Int} (he : e < 0) :
    1 ≤ (-e).toNat - maxPower * (((-e).toNat - 1) / maxPower) ∧
      (-e).toNat - maxPower * (((-e).toNat - 1) / maxPower) ≤ maxPower := by
  have hmod := Nat.mod_lt ((-e).toNat - 1) (show 0 < maxPower by decide)
  have hdiv := Nat.div_add_mod ((-e).toNat - 1) maxPower
  omega

/-- A negative exponent never leads out of range. -/
theorem exists_scale_neg {x : Binary64} (hx : x.value ≤ significandBound) {e : Int} (he : e < 0) :
    ∃ y, scale x e = some y := by
  obtain ⟨y, hy, hle⟩ := exists_lower (((-e).toNat - 1) / maxPower) hx
  by_cases hzero : y.isZero = true
  · exact ⟨y, by simp [scale, not_le.mpr he, hy, hzero]⟩
  · obtain ⟨hlow, hhigh⟩ := lastExponent_bounds he
    obtain ⟨p, z, hp, hz, -⟩ := exists_div_powerOfTen hle hlow hhigh
    exact ⟨z, by simp [scale, not_le.mpr he, hy, hzero, hp, hz]⟩

theorem finite_of_ofNat {n : Nat} {x : Binary64} (h : ofNat n = some x) : Finite x :=
  finite_of_nearest one_ne_zero h

/-- A significand of 64 bits is a number, off by at most its share of `2 ^ -53`. -/
theorem exists_ofNat {s : Nat} (hs : s < 2 ^ 64) :
    ∃ x, ofNat s = some x ∧ x.value ≤ s * (1 + 1 / 2 ^ 53) := by
  have hquot : (s : ℚ) / (1 : Nat) = s := by simp
  by_cases hzero : s = 0
  · subst hzero
    exact ⟨zero false, by simp [ofNat, nearest], by simp⟩
  · have hs' : (s : ℚ) < 2 ^ 64 := by exact_mod_cast hs
    have hbound : (2 ^ 64 : ℚ) < overflow := by
      have := ten_pow_lt_overflow (k := 20) (by decide)
      linarith
    obtain ⟨x, hx, hround⟩ := rounded_nearest false s one_ne_zero
      (by rw [hquot]; exact hs'.trans hbound)
    rw [hquot] at hround
    have hone : (1 : ℚ) ≤ s := by exact_mod_cast Nat.pos_of_ne_zero hzero
    have := (abs_le.mp (hround.abs_sub_le hone)).2
    exact ⟨x, hx, by linarith⟩

/-- What a decimal must leave free below `overflow` for the roundings of its significand and of
the power of ten. -/
def margin : ℚ := (1 + 1 / 2 ^ 53) ^ 2

theorem exists_scale_power {x : Binary64} {s k : Nat} (hx : x.value ≤ s * (1 + 1 / 2 ^ 53))
    (hk : k ≤ maxPower) (h : (s : ℚ) * 10 ^ k * margin < overflow) :
    ∃ y, scale x k = some y := by
  obtain ⟨p, hp, herr⟩ := exists_powerOfTen hk
  have hpower : p.value ≤ 10 ^ k * (1 + 1 / 2 ^ 53) := by
    have := (abs_le.mp herr).2
    linarith
  have hprod : x.value * p.value < overflow := by
    refine lt_of_le_of_lt ?_ h
    calc x.value * p.value ≤ s * (1 + 1 / 2 ^ 53) * (10 ^ k * (1 + 1 / 2 ^ 53)) :=
          mul_le_mul hx hpower p.value_nonneg (by positivity)
      _ = s * 10 ^ k * margin := by
          rw [margin]
          ring
  obtain ⟨y, hy, -⟩ := exists_mul hprod
  exact ⟨y, by simp [scale, hk, hp, hy]⟩

/-- Beyond the largest power only zero stays in range. -/
theorem eq_zero_of_maxPower_lt {s k : Nat} (hk : maxPower < k)
    (h : (s : ℚ) * 10 ^ k * margin < overflow) : s = 0 := by
  by_contra hs
  have hs₁ : (1 : ℚ) ≤ s := by exact_mod_cast Nat.pos_of_ne_zero hs
  have hmargin : (1 : ℚ) ≤ margin := by norm_num [margin]
  have hten : (10 : ℚ) ^ (maxPower + 1) ≤ 10 ^ k := pow_le_pow_right₀ (by norm_num) hk
  have hpos : (0 : ℚ) < 10 ^ k := by positivity
  have hge : (10 : ℚ) ^ k ≤ s * 10 ^ k * margin :=
    calc (10 : ℚ) ^ k = 1 * 10 ^ k * 1 := by ring
      _ ≤ s * 10 ^ k * margin := by gcongr
  exact absurd (h.trans (overflow_bounds.2.trans_le hten)) (not_lt.mpr hge)

theorem exists_scale_nonneg {x : Binary64} {s k : Nat} (hx : x.value ≤ s * (1 + 1 / 2 ^ 53))
    (h : (s : ℚ) * 10 ^ k * margin < overflow) : ∃ y, scale x k = some y := by
  by_cases hk : k ≤ maxPower
  · exact exists_scale_power hx hk h
  · have hzero : x.isZero = true := by
      rw [← value_eq_zero_iff]
      refine le_antisymm ?_ x.value_nonneg
      simpa [eq_zero_of_maxPower_lt (not_le.mp hk) h] using hx
    exact ⟨x, by simp [scale, hk, hzero]⟩

/-- **Reading decimals.** A decimal with a significand of 64 bits is read as a number if its
exponent is negative, or if it stays below `overflow` with the margin for two roundings. -/
theorem ofDecimal_isSome (negative : Bool) {s : Nat} (hs : s < 2 ^ 64) {e : Int}
    (h : e < 0 ∨ (s : ℚ) * 10 ^ e * margin < overflow) :
    ∃ y, ofDecimal negative s e = some y := by
  obtain ⟨x, hx, hvalue⟩ := exists_ofNat hs
  suffices hscale : ∃ y, scale x e = some y by
    obtain ⟨y, hy⟩ := hscale
    exact ⟨if negative then y.neg else y, by simp [ofDecimal, hx, hy]⟩
  rcases lt_or_ge e 0 with he | he
  · have hs' : (s : ℚ) < 2 ^ 64 := by exact_mod_cast hs
    have hx' : x.value ≤ significandBound := by
      rw [significandBound]
      linarith
    exact exists_scale_neg hx' he
  · obtain ⟨k, rfl⟩ := Int.eq_ofNat_of_zero_le he
    have h := h.resolve_left (not_lt.mpr he)
    rw [zpow_natCast] at h
    exact exists_scale_nonneg hvalue h

/-! ## What is read is finite -/

theorem finite_of_lower {n : Nat} {x y : Binary64} (hx : Finite x) (h : lower n x = some y) :
    Finite y := by
  induction n generalizing x with
  | zero =>
    cases h
    exact hx
  | succ n ih =>
    obtain ⟨p, hp, hfive⟩ := exists_divisor (k := maxPower) (by decide) le_rfl
    rw [lower] at h
    split at h
    · cases h
      exact hx
    · simp only [hp, Option.bind_eq_bind, Option.bind_some, Option.bind_eq_some_iff] at h
      obtain ⟨z, hz, h⟩ := h
      exact ih (finite_of_div (by linarith) hz) h

theorem finite_of_scale {x y : Binary64} (hx : Finite x) {e : Int} (h : scale x e = some y) :
    Finite y := by
  unfold scale at h
  split at h
  · split at h
    · simp only [Option.bind_eq_bind, Option.bind_eq_some_iff] at h
      obtain ⟨p, -, h⟩ := h
      exact finite_of_mul h
    · split at h
      · cases h
        exact hx
      · cases h
  · rename_i he
    obtain ⟨hlow, hhigh⟩ := lastExponent_bounds (not_le.mp he)
    obtain ⟨p, hp, hfive⟩ := exists_divisor hlow hhigh
    simp only [Option.bind_eq_bind, Option.bind_eq_some_iff] at h
    obtain ⟨z, hz, h⟩ := h
    split at h
    · cases h
      exact finite_of_lower hx hz
    · rw [hp, Option.bind_some] at h
      exact finite_of_div (by linarith) h

theorem finite_of_ofDecimal {negative : Bool} {s : Nat} {e : Int} {y : Binary64}
    (h : ofDecimal negative s e = some y) : Finite y := by
  simp only [ofDecimal, Option.bind_eq_bind, Option.bind_eq_some_iff] at h
  obtain ⟨x, hx, z, hz, h⟩ := h
  have hfinite := finite_of_scale (finite_of_ofNat hx) hz
  cases h
  split
  · exact hfinite.neg
  · exact hfinite

end Workbench.Binary64
