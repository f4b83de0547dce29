import Workbench.Binary64.Shortest
import Workbench.Proofs.Binary64.Decimal

/-!
# Shortest decimals stay in range

The decimal that is printed for a finite number lies no farther up than the midpoint to the next
number, has a significand of 64 bits and an exponent of three digits. So it can be read again:
`ofDecimal_shortest_isSome`. The number that it is read as can differ from the one that was
printed, since reading rounds twice.
-/
namespace Workbench.Binary64

/-! ## Ratios -/

namespace Ratio

def toRat (x : Ratio) : ℚ := x.num / x.den

theorem toRat_inTens (x : Ratio) (k : Int) : (x.inTens k).toRat = x.toRat / 10 ^ k := by
  rcases le_total 0 k with h | h
  · obtain ⟨n, rfl⟩ := Int.eq_ofNat_of_zero_le h
    simp [toRat, inTens, div_div]
  · obtain ⟨n, hn⟩ := Int.eq_ofNat_of_zero_le (Int.neg_nonneg.mpr h)
    obtain rfl : k = -(n : Int) := by omega
    simp [toRat, inTens, mul_div_right_comm]

theorem den_inTens_pos {x : Ratio} (hx : 0 < x.den) (k : Int) : 0 < (x.inTens k).den :=
  Nat.mul_pos hx (Nat.pow_pos (by decide))

theorem le_iff {x y : Ratio} (hx : 0 < x.den) (hy : 0 < y.den) :
    x.le y = true ↔ x.toRat ≤ y.toRat := by
  rw [toRat, toRat, div_le_div_iff₀ (by exact_mod_cast hx) (by exact_mod_cast hy), le,
    decide_eq_true_eq]
  norm_cast

theorem le_of_lt {x y : Ratio} (h : x.lt y = true) : x.le y = true := by
  rw [lt, decide_eq_true_eq] at h
  rw [le, decide_eq_true_eq]
  exact h.le

end Ratio

theorem dyadic_toRat (n : Nat) (e : Int) : (dyadic n e).toRat = n * 2 ^ e :=
  cast_shifted n e

theorem dyadic_den_pos (n : Nat) (e : Int) : 0 < (dyadic n e).den :=
  Nat.pow_pos (by decide)

/-! ## The leading digit -/

theorem lt_tens_iff {x : Ratio} (hx : 0 < x.den) (k : Int) :
    (x.inTens k).num < (x.inTens k).den ↔ x.toRat < 10 ^ k := by
  have hden : (0 : ℚ) < (x.inTens k).den := by exact_mod_cast Ratio.den_inTens_pos hx k
  rw [← div_lt_one (by positivity : (0 : ℚ) < 10 ^ k), ← Ratio.toRat_inTens, Ratio.toRat,
    div_lt_one hden, Nat.cast_lt]

theorem leading_bounds {x : Ratio} (hx : 0 < x.den) (fuel : Nat) {k : Int}
    (hlow : 10 ^ k ≤ x.toRat) (hhigh : x.toRat < 10 ^ (k + fuel + 1)) :
    10 ^ leading x fuel k ≤ x.toRat ∧ x.toRat < 10 ^ (leading x fuel k + 1) := by
  induction fuel generalizing k with
  | zero => exact ⟨hlow, by simpa [leading] using hhigh⟩
  | succ fuel ih =>
    simp only [leading, lt_tens_iff hx]
    split
    · rename_i hlt
      exact ⟨hlow, hlt⟩
    · rename_i hge
      refine ih (not_lt.mp hge) ?_
      convert hhigh using 2
      push_cast
      ring

/-- The estimate of the leading decimal digit from the leading bit. -/
def tensOf (l : Int) : Int := l * 30103 / 100000

/-- Exact in the range of the exponents. -/
theorem tens_table : ∀ n < 1100, 10 ^ (n * 30103 / 100000) ≤ 2 ^ n ∧
    2 ^ n ≤ 10 ^ (n * 30103 / 100000 + 1) := by
  decide +kernel

theorem tensOf_bounds {l : Int} (hlow : -1100 < l) (hhigh : l < 1100) :
    (10 : ℚ) ^ tensOf l ≤ 2 ^ l ∧ (2 : ℚ) ^ l ≤ 10 ^ (tensOf l + 1) := by
  rcases le_or_gt 0 l with h | h
  · obtain ⟨n, rfl⟩ := Int.eq_ofNat_of_zero_le h
    obtain ⟨hle, hge⟩ := tens_table n (by omega)
    have htens : tensOf n = (n * 30103 / 100000 : Nat) := by
      rw [tensOf]
      omega
    rw [htens]
    constructor
    · exact_mod_cast hle
    · exact_mod_cast hge
  · obtain ⟨n, hn⟩ := Int.eq_ofNat_of_zero_le (by omega : 0 ≤ -l)
    obtain rfl : l = -(n : Int) := by omega
    obtain ⟨hle, hge⟩ := tens_table n (by omega)
    have htens : tensOf (-(n : Int)) = -((n * 30103 / 100000 + 1 : Nat) : Int) := by
      rw [tensOf]
      omega
    have hsucc : tensOf (-(n : Int)) + 1 = -((n * 30103 / 100000 : Nat) : Int) := by
      rw [htens]
      push_cast
      ring
    rw [hsucc, htens, zpow_neg, zpow_neg, zpow_neg, zpow_natCast, zpow_natCast, zpow_natCast]
    constructor
    · gcongr
      exact_mod_cast hge
    · gcongr
      exact_mod_cast hle

theorem log2_mul_pow_two {n : Nat} (hn : n ≠ 0) (k : Nat) :
    (n * Nat.pow 2 k).log2 = n.log2 + k := by
  have hpos : 0 < 2 ^ k := Nat.pow_pos (by decide)
  rw [Nat.log2_eq_iff (Nat.mul_ne_zero hn (pow_two_ne_zero k))]
  constructor
  · rw [Nat.pow_add]
    exact Nat.mul_le_mul_right _ (Nat.log2_self_le hn)
  · rw [Nat.add_right_comm, Nat.pow_add]
    exact Nat.mul_lt_mul_of_pos_right Nat.lt_log2_self hpos

/-- The bit lengths of a dyadic give the exponent of its leading bit. -/
theorem dyadic_log2 {m : Nat} (hm : m ≠ 0) (e : Int) :
    ((dyadic m e).num.log2 : Int) - (dyadic m e).den.log2 = m.log2 + e := by
  have hden : (Nat.pow 2 (-e).toNat).log2 = (-e).toNat := Nat.log2_two_pow
  simp only [dyadic, log2_mul_pow_two hm, hden]
  omega

/-- The leading decimal digit of a number is found. -/
theorem leadingExponent_bounds {m : Nat} (hm : m ≠ 0) (hlt : m < 2 * leastNormal) {e : Int}
    (hlow : minExponent ≤ e) (hhigh : e ≤ maxExponent) :
    (10 : ℚ) ^ leadingExponent (dyadic m e) ≤ m * 2 ^ e ∧
      (m * 2 ^ e : ℚ) < 10 ^ (leadingExponent (dyadic m e) + 1) := by
  have hlog : m.log2 < 53 := (Nat.log2_lt hm).mpr hlt
  obtain ⟨hle, hge⟩ := tensOf_bounds (l := m.log2 + e)
    (by rw [minExponent] at hlow; omega) (by rw [maxExponent] at hhigh; omega)
  have hten : (10 : ℚ) ≠ 0 := by norm_num
  have hstart : leadingExponent (dyadic m e) =
      leading (dyadic m e) 4 (tensOf (m.log2 + e) - 1) := by
    rw [leadingExponent, dyadic_log2 hm, tensOf]
  rw [hstart, ← dyadic_toRat]
  apply leading_bounds (dyadic_den_pos m e)
  · rw [dyadic_toRat]
    calc (10 : ℚ) ^ (tensOf (m.log2 + e) - 1) ≤ 10 ^ tensOf (m.log2 + e) :=
          zpow_le_zpow_right₀ (by norm_num) (by omega)
      _ ≤ 2 ^ (m.log2 + e) := hle
      _ = 2 ^ (m.log2 : Int) * 2 ^ e := zpow_add₀ two_ne_zero _ _
      _ ≤ m * 2 ^ e := by
          gcongr
          exact two_zpow_log2_le hm
  · rw [dyadic_toRat]
    calc (m * 2 ^ e : ℚ) < 2 ^ ((m.log2 : Int) + 1) * 2 ^ e := by
          gcongr
          exact lt_two_zpow_log2 m
      _ = 2 * 2 ^ (m.log2 + e) := by
          rw [zpow_add_one₀ two_ne_zero, zpow_add₀ two_ne_zero]
          ring
      _ ≤ 10 * 10 ^ (tensOf (m.log2 + e) + 1) := by
          gcongr
          norm_num
      _ = 10 ^ (tensOf (m.log2 + e) + 2) := by
          rw [← zpow_one_add₀ hten]
          congr 1
          ring
      _ ≤ 10 ^ (tensOf (m.log2 + e) - 1 + (4 : Nat) + 1) :=
          zpow_le_zpow_right₀ (by norm_num) (by push_cast; omega)

/-! ## The search -/

/-- The midpoint above the number `m * 2 ^ e`. -/
def midpoint (m : Nat) (e : Int) : ℚ := (m + 1 / 2) * 2 ^ e

theorem Interval.holds_bounds {i : Interval} (hlow : 0 < i.low.toRat) (hden : 0 < i.low.den)
    (hhigh : 0 < i.high.den) {c : Nat} {k : Int} (h : i.holds c k = true) :
    0 < c ∧ (c : ℚ) * 10 ^ k ≤ i.high.toRat := by
  have hle : (i.low.inTens k).le ⟨c, 1⟩ = true ∧ (Ratio.mk c 1).le (i.high.inTens k) = true := by
    unfold holds at h
    split at h
    · simpa using h
    · obtain ⟨hl, hh⟩ := Bool.and_eq_true_iff.mp h
      exact ⟨Ratio.le_of_lt hl, Ratio.le_of_lt hh⟩
  have hc : (Ratio.mk c 1).toRat = c := by simp [Ratio.toRat]
  have hpos : (0 : ℚ) < 10 ^ k := by positivity
  rw [Ratio.le_iff (Ratio.den_inTens_pos hden k) one_pos,
    Ratio.le_iff one_pos (Ratio.den_inTens_pos hhigh k), hc, Ratio.toRat_inTens,
    Ratio.toRat_inTens, le_div_iff₀ hpos] at hle
  refine ⟨?_, hle.2⟩
  exact_mod_cast (div_pos hlow hpos).trans_le hle.1

theorem interval_holds {m : Nat} (hm : m ≠ 0) {e : Int} {c : Nat} {k : Int}
    (h : (interval m e).holds c k = true) : 0 < c ∧ (c : ℚ) * 10 ^ k ≤ midpoint m e := by
  have hquarter : (2 : ℚ) ^ (e - 2) = 2 ^ e / 4 := by
    rw [zpow_sub₀ two_ne_zero]
    norm_num
  have hlow : 0 < (interval m e).low.toRat := by
    have hcount : 0 < 4 * m - (if m = leastNormal ∧ minExponent < e then 1 else 2) := by
      split <;> omega
    rw [interval, dyadic_toRat]
    exact mul_pos (by exact_mod_cast hcount) (by positivity)
  obtain ⟨hc, hle⟩ :=
    Interval.holds_bounds hlow (dyadic_den_pos _ _) (dyadic_den_pos _ _) h
  refine ⟨hc, hle.trans_eq ?_⟩
  rw [interval, dyadic_toRat, hquarter, midpoint]
  push_cast
  ring

theorem onGrid_some {i : Interval} {x : Ratio} {k : Int} {d : Decimal}
    (h : onGrid i x k = some d) : d.exponent = k ∧ i.holds d.digits k = true := by
  unfold onGrid at h
  grind

/-- A hit, or the digits of the number itself on the last grid. -/
theorem search_cases (i : Interval) (x : Ratio) (fuel : Nat) (k : Int) :
    (k - fuel ≤ (search i x fuel k).exponent ∧ (search i x fuel k).exponent ≤ k ∧
      i.holds (search i x fuel k).digits (search i x fuel k).exponent = true) ∨
    search i x fuel k =
      ⟨(x.inTens (k - fuel)).num / (x.inTens (k - fuel)).den, k - fuel⟩ := by
  induction fuel generalizing k with
  | zero => exact .inr (by simp [search])
  | succ fuel ih =>
    rw [search]
    cases hgrid : onGrid i x k with
    | some d =>
      obtain ⟨rfl, hholds⟩ := onGrid_some hgrid
      exact .inl ⟨by simp; omega, by simp, by simpa using hholds⟩
    | none =>
      have hstep : k - 1 - (fuel : Int) = k - ((fuel + 1 : Nat) : Int) := by
        push_cast
        ring
      rw [Option.getD_none]
      refine (ih (k - 1)).imp ?_ ?_
      · rintro ⟨hlow, hhigh, hholds⟩
        exact ⟨by omega, by omega, hholds⟩
      · rw [hstep]
        exact id

/-! ## The shortest decimal -/

theorem floor_inTens_bounds {x : Ratio} (hx : 0 < x.den) {k : Int} (h : 10 ^ k ≤ x.toRat) :
    0 < (x.inTens k).num / (x.inTens k).den ∧
      (((x.inTens k).num / (x.inTens k).den : Nat) : ℚ) * 10 ^ k ≤ x.toRat := by
  have hpos : (0 : ℚ) < 10 ^ k := by positivity
  have hden := Ratio.den_inTens_pos hx k
  constructor
  · refine Nat.div_pos (not_lt.mp fun hlt => ?_) hden
    exact absurd ((lt_tens_iff hx k).mp hlt) (not_lt.mpr h)
  · rw [← le_div_iff₀ hpos, ← Ratio.toRat_inTens]
    exact Nat.cast_div_le

/-- What is known of the decimal of a number whose leading digit has the exponent `lead`. -/
structure Fits (x : Binary64) (lead : Int) (d : Decimal) : Prop where
  leading_le : (10 : ℚ) ^ lead ≤ x.value
  lt_leading : x.value < 10 ^ (lead + 1)
  exponent_ge : lead - 17 ≤ d.exponent
  exponent_le : d.exponent ≤ lead + 1
  digits_pos : 0 < d.digits
  le_midpoint : (d.digits : ℚ) * 10 ^ d.exponent ≤ midpoint x.mantissa x.exponent

theorem value_lt_midpoint (x : Binary64) : x.value < midpoint x.mantissa x.exponent := by
  rw [value, midpoint]
  gcongr
  norm_num

theorem fits_shortest {x : Binary64} (hx : Finite x) (hzero : x.isZero = false) :
    ∃ lead, Fits x lead x.shortest := by
  have hm : x.mantissa ≠ 0 := by
    intro h
    simp [isZero, h] at hzero
  set v := dyadic x.mantissa x.exponent with hv
  have hvalue : v.toRat = x.value := dyadic_toRat _ _
  obtain ⟨hlow, hhigh⟩ : 10 ^ leadingExponent v ≤ x.value ∧
      x.value < 10 ^ (leadingExponent v + 1) :=
    leadingExponent_bounds hm hx.mantissa_lt hx.exponent_ge hx.exponent_le
  have hden : 0 < v.den := dyadic_den_pos _ _
  have hshortest : x.shortest =
      search (interval x.mantissa x.exponent) v 18 (leadingExponent v + 1) := by
    simp [shortest, hzero, hv]
  refine ⟨leadingExponent v, ?_⟩
  rw [hshortest]
  rcases search_cases (interval x.mantissa x.exponent) v 18 (leadingExponent v + 1) with
    ⟨hge, hle, hholds⟩ | hlast
  · obtain ⟨hpos, hmid⟩ := interval_holds hm hholds
    exact ⟨hlow, hhigh, by omega, hle, hpos, hmid⟩
  · have hgrid : (10 : ℚ) ^ (leadingExponent v + 1 - (18 : Nat)) ≤ v.toRat :=
      (zpow_le_zpow_right₀ (by norm_num) (by omega)).trans (hlow.trans_eq hvalue.symm)
    obtain ⟨hpos, hle⟩ := floor_inTens_bounds hden hgrid
    rw [hlast]
    exact ⟨hlow, hhigh, by simp only; omega, by simp only; omega, hpos,
      hle.trans (hvalue.trans_le (value_lt_midpoint x).le)⟩

theorem Fits.one_le_mantissa {x : Binary64} {lead : Int} {d : Decimal} (h : Fits x lead d) :
    (1 : ℚ) ≤ x.mantissa := by
  have hvalue : 0 < x.value := lt_of_lt_of_le (by positivity) h.leading_le
  exact_mod_cast Nat.pos_of_ne_zero (mantissa_ne_zero hvalue)

theorem Fits.digits_lt {x : Binary64} {lead : Int} {d : Decimal} (h : Fits x lead d) :
    d.digits < 2 ^ 63 := by
  have hpos : (0 : ℚ) < 10 ^ d.exponent := by positivity
  have hm := h.one_le_mantissa
  have hmid : midpoint x.mantissa x.exponent ≤ 3 / 2 * x.value := by
    rw [midpoint, value, ← mul_assoc]
    gcongr
    linarith
  have hvalue : x.value < 10 ^ 18 * 10 ^ d.exponent := by
    refine h.lt_leading.trans_le ?_
    rw [← zpow_natCast, ← zpow_add₀ (by norm_num)]
    refine zpow_le_zpow_right₀ (by norm_num) ?_
    have := h.exponent_ge
    push_cast
    omega
  have hdigits : (d.digits : ℚ) * 10 ^ d.exponent < 2 ^ 63 * 10 ^ d.exponent := by
    have := h.le_midpoint
    linarith
  exact_mod_cast lt_of_mul_lt_mul_right hdigits hpos.le

theorem Finite.mantissa_add_one_le {x : Binary64} (hx : Finite x) :
    (x.mantissa : ℚ) + 1 ≤ 2 ^ 53 := by
  have := hx.mantissa_lt
  exact_mod_cast this

theorem Finite.value_lt_overflow {x : Binary64} (hx : Finite x) : x.value < overflow := by
  have hm := hx.mantissa_add_one_le
  have he : (2 : ℚ) ^ x.exponent ≤ 2 ^ (971 : ℤ) := zpow_le_zpow_right₀ one_le_two hx.exponent_le
  calc x.value ≤ x.mantissa * 2 ^ (971 : ℤ) := mul_le_mul_of_nonneg_left he (Nat.cast_nonneg _)
    _ < overflow := mul_lt_mul_of_pos_right (by linarith) (by positivity)

theorem Fits.lead_bounds {x : Binary64} {lead : Int} {d : Decimal} (h : Fits x lead d)
    (hx : Finite x) : -324 ≤ lead ∧ lead ≤ maxPower := by
  have hone : (1 : ℚ) < 10 := by norm_num
  constructor
  · have hleast : (2 : ℚ) ^ (-1074 : ℤ) ≤ x.value :=
      calc (2 : ℚ) ^ (-1074 : ℤ) ≤ 2 ^ x.exponent :=
            zpow_le_zpow_right₀ one_le_two hx.exponent_ge
        _ ≤ x.mantissa * 2 ^ x.exponent := le_mul_of_one_le_left (by positivity) h.one_le_mantissa
    have hten : (10 : ℚ) ^ (-324 : ℤ) ≤ 2 ^ (-1074 : ℤ) :=
      (tensOf_bounds (l := -1074) (by decide) (by decide)).1
    have := (zpow_lt_zpow_iff_right₀ hone).mp ((hten.trans hleast).trans_lt h.lt_leading)
    omega
  · have hlt := h.leading_le.trans_lt (hx.value_lt_overflow.trans overflow_bounds.2)
    rw [← zpow_natCast, zpow_lt_zpow_iff_right₀ hone] at hlt
    omega

/-- Above all but the two largest numbers there is room for the roundings of reading. -/
theorem midpoint_margin_lt {x : Binary64} (hx : Finite x)
    (h : x.exponent < maxExponent ∨ x.mantissa + 3 ≤ 2 * leastNormal) :
    midpoint x.mantissa x.exponent * margin < overflow := by
  have htop : (0 : ℚ) < 2 ^ (971 : ℤ) := by positivity
  have hm := hx.mantissa_add_one_le
  have hbound : midpoint x.mantissa x.exponent ≤ (2 ^ 53 - 5 / 2) * 2 ^ (971 : ℤ) := by
    rcases h with h | h
    · have he : (2 : ℚ) ^ (x.exponent + 1) ≤ 2 ^ (971 : ℤ) := zpow_le_zpow_right₀ one_le_two h
      rw [zpow_add_one₀ two_ne_zero] at he
      calc midpoint x.mantissa x.exponent ≤ 2 ^ 53 * 2 ^ x.exponent := by
            unfold midpoint
            gcongr
            linarith
        _ ≤ (2 ^ 53 - 5 / 2) * 2 ^ (971 : ℤ) := by
            generalize (2 : ℚ) ^ (971 : ℤ) = top at *
            linarith
    · have he : (2 : ℚ) ^ x.exponent ≤ 2 ^ (971 : ℤ) :=
        zpow_le_zpow_right₀ one_le_two hx.exponent_le
      have hm : (x.mantissa : ℚ) + 3 ≤ 2 ^ 53 := by exact_mod_cast h
      exact mul_le_mul (by linarith) he (by positivity) (by norm_num)
  calc midpoint x.mantissa x.exponent * margin ≤
        (2 ^ 53 - 5 / 2) * 2 ^ (971 : ℤ) * margin := by
          refine mul_le_mul_of_nonneg_right hbound ?_
          norm_num [margin]
    _ = (2 ^ 53 - 5 / 2) * margin * 2 ^ (971 : ℤ) := by ring
    _ < overflow := mul_lt_mul_of_pos_right (by norm_num [margin]) htop

theorem ofDecimal_largest (negative : Bool) {m : Nat} (h : 2 * leastNormal < m + 3)
    (hm : m < 2 * leastNormal) :
    (ofDecimal negative (shortest ⟨negative, m, maxExponent⟩).digits
      (shortest ⟨negative, m, maxExponent⟩).exponent).isSome = true := by
  have hcases : m = 2 * leastNormal - 1 ∨ m = 2 * leastNormal - 2 := by omega
  revert negative
  rcases hcases with rfl | rfl <;> decide +kernel

/-- **Shortest decimals are read.** -/
theorem ofDecimal_shortest_isSome {x : Binary64} (hx : Finite x) :
    (ofDecimal x.negative x.shortest.digits x.shortest.exponent).isSome = true := by
  cases hzero : x.isZero with
  | true =>
    have h : x.shortest = ⟨0, 0⟩ := by simp [shortest, hzero]
    rw [h]
    cases x.negative <;> decide +kernel
  | false =>
    obtain ⟨lead, h⟩ := fits_shortest hx hzero
    by_cases hroom : x.exponent < maxExponent ∨ x.mantissa + 3 ≤ 2 * leastNormal
    · rw [Option.isSome_iff_exists]
      refine ofDecimal_isSome x.negative (h.digits_lt.trans (by norm_num)) (.inr ?_)
      refine lt_of_le_of_lt ?_ (midpoint_margin_lt hx hroom)
      refine mul_le_mul_of_nonneg_right h.le_midpoint ?_
      norm_num [margin]
    · obtain ⟨negative, m, e⟩ := x
      obtain rfl : e = maxExponent := by
        have := hx.exponent_le
        simp only at hroom this
        omega
      exact ofDecimal_largest negative (by simp only at hroom; omega) hx.mantissa_lt

end Workbench.Binary64
