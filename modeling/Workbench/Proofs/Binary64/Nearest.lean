import Mathlib
import Workbench.Binary64.Basic

/-!
# Rounding to the nearest number

A `Binary64` stands for the rational `value`, its magnitude. Rounding is needed here for what it
does to magnitudes, and for when it stays in range.

* `finite_of_nearest`: what `nearest` makes is in range.
* `rounded_nearest`: it makes a number of every quotient below `overflow`, the midpoint between the
  largest number and the one that would follow it, and is off by at most half a unit of its last
  place.
-/
namespace Workbench.Binary64

/-- The magnitude of a number. -/
def value (x : Binary64) : ℚ := x.mantissa * 2 ^ x.exponent

/-- What every number made here satisfies: the mantissa has 53 bits, the exponent is in range. -/
structure Finite (x : Binary64) : Prop where
  mantissa_lt : x.mantissa < 2 * leastNormal
  exponent_ge : minExponent ≤ x.exponent
  exponent_le : x.exponent ≤ maxExponent

/-- From this magnitude on a quotient is out of range. -/
def overflow : ℚ := (2 ^ 53 - 1 / 2) * 2 ^ (971 : ℤ)

theorem value_nonneg (x : Binary64) : 0 ≤ x.value := by
  unfold value
  positivity

theorem finite_zero (negative : Bool) : Finite (zero negative) where
  mantissa_lt := by simp [zero, leastNormal]
  exponent_ge := by simp [zero]
  exponent_le := by simp [zero, minExponent, maxExponent]

theorem Finite.neg {x : Binary64} (h : Finite x) : Finite x.neg :=
  ⟨h.mantissa_lt, h.exponent_ge, h.exponent_le⟩

@[simp] theorem value_zero (negative : Bool) : (zero negative).value = 0 := by
  simp [value, zero]

theorem value_eq_zero_iff (x : Binary64) : x.value = 0 ↔ x.isZero = true := by
  simp [value, isZero, zpow_ne_zero]

/-! ## Units -/

/-- Moving a power of two of either sign into one of the two sides of a quotient. -/
theorem cast_scaled (num den : Nat) (e : Int) :
    ((num * Nat.pow 2 (-e).toNat : Nat) : ℚ) / (den * Nat.pow 2 e.toNat : Nat) =
      num / den / 2 ^ e := by
  rcases le_total 0 e with h | h
  · obtain ⟨k, rfl⟩ := Int.eq_ofNat_of_zero_le h
    simp [div_div]
  · obtain ⟨k, hk⟩ := Int.eq_ofNat_of_zero_le (Int.neg_nonneg.mpr h)
    obtain rfl : e = -(k : Int) := by omega
    simp [mul_div_right_comm]

theorem lt_two_zpow_log2 (n : Nat) : (n : ℚ) < 2 ^ ((n.log2 : Int) + 1) := by
  have h : n < 2 ^ (n.log2 + 1) := Nat.lt_log2_self
  exact_mod_cast h

theorem two_zpow_log2_le {n : Nat} (hn : n ≠ 0) : (2 : ℚ) ^ (n.log2 : Int) ≤ n := by
  have h : 2 ^ n.log2 ≤ n := Nat.log2_self_le hn
  exact_mod_cast h

/-- The quotient lies within a factor of two on either side of what the bit lengths say. -/
theorem quotient_bounds {num den : Nat} (hn : num ≠ 0) (hd : den ≠ 0) :
    (2 : ℚ) ^ ((num.log2 : Int) - den.log2 - 1) < num / den ∧
      (num / den : ℚ) < 2 ^ ((num.log2 : Int) - den.log2 + 1) := by
  have hd₀ : (0 : ℚ) < den := by exact_mod_cast Nat.pos_of_ne_zero hd
  have h2 : (2 : ℚ) ≠ 0 := two_ne_zero
  constructor
  · rw [lt_div_iff₀ hd₀]
    calc (2 : ℚ) ^ ((num.log2 : Int) - den.log2 - 1) * den
        < 2 ^ ((num.log2 : Int) - den.log2 - 1) * 2 ^ ((den.log2 : Int) + 1) := by
          gcongr
          exact lt_two_zpow_log2 den
      _ = 2 ^ (num.log2 : Int) := by
          rw [← zpow_add₀ h2]
          congr 1
          ring
      _ ≤ num := two_zpow_log2_le hn
  · rw [div_lt_iff₀ hd₀]
    calc (num : ℚ) < 2 ^ ((num.log2 : Int) + 1) := lt_two_zpow_log2 num
      _ = 2 ^ ((num.log2 : Int) - den.log2 + 1) * 2 ^ (den.log2 : Int) := by
          rw [← zpow_add₀ h2]
          congr 1
          ring
      _ ≤ 2 ^ ((num.log2 : Int) - den.log2 + 1) * den := by
          gcongr
          exact two_zpow_log2_le hd

/-- The unit counts the quotient in fewer than `2 ^ 53` parts, and in at least `2 ^ 52` unless it
is the least unit there is. -/
structure Unit (num den : Nat) (e : Int) : Prop where
  least : minExponent ≤ e
  upper : (num / den : ℚ) < 2 ^ 53 * 2 ^ e
  lower : 2 ^ 52 * 2 ^ e ≤ (num / den : ℚ) ∨ e = minExponent

/-- Whether a unit is too small is seen from the number of units in the quotient. -/
theorem le_count_iff (num : Nat) {den : Nat} (hd : den ≠ 0) (e : Int) :
    2 * leastNormal ≤ num * Nat.pow 2 (-e).toNat / (den * Nat.pow 2 e.toNat) ↔
      (2 : ℚ) ^ 53 * 2 ^ e ≤ num / den := by
  have hpos : 0 < den * Nat.pow 2 e.toNat :=
    Nat.mul_pos (Nat.pos_of_ne_zero hd) (Nat.pow_pos (by decide))
  rw [Nat.le_div_iff_mul_le hpos, ← le_div_iff₀ (by positivity : (0 : ℚ) < 2 ^ e),
    ← cast_scaled, le_div_iff₀ (by exact_mod_cast hpos)]
  norm_cast

theorem unit_unitOf {num den : Nat} (hn : num ≠ 0) (hd : den ≠ 0) :
    Unit num den (unitOf num den) := by
  obtain ⟨hlow, hhigh⟩ := quotient_bounds hn hd
  have h2 : (1 : ℚ) ≤ 2 := one_le_two
  set t : Int := (num.log2 : Int) - den.log2 - 53 with ht
  set e : Int := max t minExponent with he
  have hle : minExponent ≤ e := le_max_right _ _
  have hlower : (2 : ℚ) ^ 52 * 2 ^ e ≤ num / den ∨ e = minExponent := by
    rcases max_choice t minExponent with h | h
    · left
      rw [← he] at h
      rw [h, ← zpow_natCast, ← zpow_add₀ two_ne_zero, ht,
        show ((52 : Nat) : Int) + ((num.log2 : Int) - den.log2 - 53) = num.log2 - den.log2 - 1 by
          push_cast; ring]
      exact hlow.le
    · exact .inr (he.trans h)
  unfold unitOf
  simp only [← ht, ← he, le_count_iff num hd]
  split
  · rename_i hbig
    refine ⟨by omega, ?_, .inl ?_⟩
    · refine hhigh.trans_le ?_
      rw [← zpow_natCast, ← zpow_add₀ two_ne_zero]
      refine zpow_le_zpow_right₀ h2 ?_
      have : t ≤ e := le_max_left _ _
      push_cast
      omega
    · rw [zpow_add_one₀ two_ne_zero]
      linarith
  · rename_i hsmall
    exact ⟨hle, not_le.mp hsmall, hlower⟩

/-! ## Rounding -/

/-- A half is the most that rounding to a whole number can be off. -/
theorem abs_roundAt_sub_le (num : Nat) {den : Nat} (hd : den ≠ 0) (e : Int) :
    |(roundAt num den e : ℚ) - num / den / 2 ^ e| ≤ 1 / 2 := by
  rw [← cast_scaled]
  unfold roundAt
  set n := num * Nat.pow 2 (-e).toNat
  set d := den * Nat.pow 2 e.toNat with hd'
  have hpos : 0 < d := Nat.mul_pos (Nat.pos_of_ne_zero hd) (Nat.pow_pos (by decide))
  have hd₀ : (0 : ℚ) < d := by exact_mod_cast hpos
  have hdiv : (n : ℚ) / d = (n / d : Nat) + (n % d : Nat) / d := by
    rw [div_eq_iff hd₀.ne', add_mul, div_mul_cancel₀ _ hd₀.ne']
    exact_mod_cast (Nat.div_add_mod' n d).symm
  have hlt : ((n % d : Nat) : ℚ) / d < 1 := by
    rw [div_lt_one hd₀]
    exact_mod_cast Nat.mod_lt n hpos
  rw [hdiv]
  dsimp only
  split
  · rename_i hup
    have hhalf : (1 : ℚ) / 2 ≤ (n % d : Nat) / d := by
      rw [div_le_div_iff₀ two_pos hd₀]
      exact_mod_cast (by omega : 1 * d ≤ n % d * 2)
    push_cast
    rw [abs_le]
    constructor <;> linarith
  · rename_i hdown
    have hhalf : ((n % d : Nat) : ℚ) / d ≤ 1 / 2 := by
      rw [div_le_div_iff₀ hd₀ two_pos]
      exact_mod_cast (by omega : n % d * 2 ≤ 1 * d)
    have hnonneg : (0 : ℚ) ≤ (n % d : Nat) / d := by positivity
    rw [abs_le]
    constructor <;> linarith

/-- The multiple of a unit is off by at most half of it. -/
theorem abs_roundAt_mul_sub_le (num : Nat) {den : Nat} (hd : den ≠ 0) (e : Int) :
    |(roundAt num den e : ℚ) * 2 ^ e - num / den| ≤ 2 ^ e / 2 := by
  have he : (0 : ℚ) < 2 ^ e := by positivity
  have hscale : (roundAt num den e : ℚ) * 2 ^ e - num / den =
      (roundAt num den e - num / den / 2 ^ e) * 2 ^ e := by
    rw [sub_mul, div_mul_cancel₀ _ he.ne']
  have hround := mul_le_mul_of_nonneg_right (abs_roundAt_sub_le num hd e) he.le
  rw [hscale, abs_mul, abs_of_pos he]
  linarith

theorem roundAt_unitOf_le {num den : Nat} (hn : num ≠ 0) (hd : den ≠ 0) :
    roundAt num den (unitOf num den) ≤ 2 * leastNormal := by
  have hround := (abs_le.mp (abs_roundAt_sub_le num hd (unitOf num den))).2
  have hcount : (num / den / 2 ^ unitOf num den : ℚ) < 2 ^ 53 := by
    rw [div_lt_iff₀ (by positivity)]
    exact (unit_unitOf hn hd).upper
  have hlt : (roundAt num den (unitOf num den) : ℚ) < (2 * leastNormal : Nat) + 1 := by
    have : ((2 * leastNormal : Nat) : ℚ) = 2 ^ 53 := by norm_num [leastNormal]
    linarith
  have : roundAt num den (unitOf num den) < 2 * leastNormal + 1 := by exact_mod_cast hlt
  omega

/-- What rounds beyond the largest finite number is at least `overflow`. -/
theorem overflow_le_of_exponent_gt {num den : Nat} (hn : num ≠ 0) (hd : den ≠ 0)
    (h : maxExponent < unitOf num den) : overflow ≤ num / den := by
  have hnormal : (2 : ℚ) ^ 52 * 2 ^ unitOf num den ≤ num / den :=
    (unit_unitOf hn hd).lower.resolve_right fun he => absurd h (by rw [he]; decide)
  have hpow : (2 : ℚ) ^ (971 + 1 : ℤ) ≤ 2 ^ unitOf num den :=
    zpow_le_zpow_right₀ one_le_two h
  rw [zpow_add_one₀ two_ne_zero] at hpow
  unfold overflow
  have htop : (0 : ℚ) < 2 ^ (971 : ℤ) := by positivity
  generalize (2 : ℚ) ^ (971 : ℤ) = top at *
  linarith

theorem overflow_le_of_carry {num den : Nat} (hd : den ≠ 0)
    (hm : roundAt num den (unitOf num den) = 2 * leastNormal)
    (he : unitOf num den = maxExponent) : overflow ≤ num / den := by
  have hround := (abs_le.mp (abs_roundAt_sub_le num hd (unitOf num den))).2
  have hcast : ((2 * leastNormal : Nat) : ℚ) = 2 ^ 53 := by norm_num [leastNormal]
  rw [hm, hcast, he] at hround
  unfold overflow
  rw [← le_div_iff₀ (by positivity)]
  exact (by linarith : (2 ^ 53 - 1 / 2 : ℚ) ≤ num / den / 2 ^ maxExponent)

theorem nearest_of_ne_zero {num : Nat} (negative : Bool) (hn : num ≠ 0) (den : Nat) :
    nearest negative num den =
      if roundAt num den (unitOf num den) = 2 * leastNormal then
        if maxExponent < unitOf num den + 1 then none
        else some ⟨negative, leastNormal, unitOf num den + 1⟩
      else
        if maxExponent < unitOf num den then none
        else some ⟨negative, roundAt num den (unitOf num den), unitOf num den⟩ := by
  unfold nearest
  rw [if_neg hn]
  dsimp only
  by_cases hcarry : roundAt num den (unitOf num den) = 2 * leastNormal
  · rw [if_pos hcarry, if_pos hcarry]
  · rw [if_neg hcarry, if_neg hcarry]

theorem finite_of_nearest {negative : Bool} {num den : Nat} (hd : den ≠ 0) {y : Binary64}
    (h : nearest negative num den = some y) : Finite y := by
  by_cases hn : num = 0
  · subst hn
    rw [nearest, if_pos rfl] at h
    cases h
    exact finite_zero negative
  have hleast := (unit_unitOf hn hd).least
  have hle := roundAt_unitOf_le hn hd
  rw [nearest_of_ne_zero negative hn] at h
  split at h <;> split at h
  · cases h
  · rename_i hroom
    cases h
    exact ⟨by norm_num [leastNormal], hleast.trans (by simp), not_lt.mp hroom⟩
  · cases h
  · rename_i hcarry hroom
    cases h
    exact ⟨lt_of_le_of_ne hle hcarry, hleast, not_lt.mp hroom⟩

/-- The magnitude of `y` is off by at most half a unit of its last place from `q`. -/
def Rounded (q : ℚ) (y : Binary64) : Prop :=
  ∃ e : ℤ, |y.value - q| ≤ 2 ^ e / 2 ∧ (2 ^ 52 * 2 ^ e ≤ q ∨ e = minExponent)

/-- **Nearest numbers.** Below `overflow` every quotient rounds to a finite number. -/
theorem rounded_nearest (negative : Bool) (num : Nat) {den : Nat} (hd : den ≠ 0)
    (h : (num / den : ℚ) < overflow) :
    ∃ y, nearest negative num den = some y ∧ Rounded (num / den) y := by
  by_cases hn : num = 0
  · subst hn
    refine ⟨zero negative, by simp [nearest], minExponent, ?_, .inr rfl⟩
    simp only [value_zero, Nat.cast_zero, zero_div, sub_zero, abs_zero]
    positivity
  have hlower := (unit_unitOf hn hd).lower
  have hfit : unitOf num den ≤ maxExponent :=
    not_lt.mp fun hbig => absurd h (not_lt.mpr (overflow_le_of_exponent_gt hn hd hbig))
  have herr := abs_roundAt_mul_sub_le num hd (unitOf num den)
  rw [nearest_of_ne_zero negative hn]
  by_cases hcarry : roundAt num den (unitOf num den) = 2 * leastNormal
  · have hroom : unitOf num den + 1 ≤ maxExponent :=
      lt_of_le_of_ne hfit fun htop =>
        absurd h (not_lt.mpr (overflow_le_of_carry hd hcarry htop))
    rw [if_pos hcarry, if_neg (not_lt.mpr hroom)]
    have hvalue : value ⟨negative, leastNormal, unitOf num den + 1⟩ =
        (roundAt num den (unitOf num den) : ℚ) * 2 ^ unitOf num den := by
      rw [hcarry, value, zpow_add_one₀ two_ne_zero]
      push_cast
      ring
    refine ⟨_, rfl, unitOf num den, ?_, hlower⟩
    rw [hvalue]
    exact herr
  · rw [if_neg hcarry, if_neg (not_lt.mpr hfit)]
    exact ⟨_, rfl, unitOf num den, herr, hlower⟩

/-- The relative error, for quotients that cannot be subnormal. -/
theorem Rounded.abs_sub_le {q : ℚ} {y : Binary64} (h : Rounded q y) (hq : 1 ≤ q) :
    |y.value - q| ≤ q / 2 ^ 53 := by
  obtain ⟨e, herr, hunit | he⟩ := h
  · linarith
  · refine herr.trans ?_
    have hleast : (2 : ℚ) ^ minExponent ≤ 2 ^ (-52 : ℤ) :=
      zpow_le_zpow_right₀ one_le_two (by decide)
    have hsmall : (2 : ℚ) ^ (-52 : ℤ) = 1 / 2 ^ 52 := by norm_num
    rw [hsmall] at hleast
    rw [he]
    linarith

/-- A crude bound that also covers the subnormal numbers. -/
theorem Rounded.value_le {q : ℚ} {y : Binary64} (h : Rounded q y) (hq : 0 ≤ q) :
    y.value ≤ 2 * q + 1 := by
  obtain ⟨e, herr, hunit | he⟩ := h
  · have := (abs_le.mp herr).2
    linarith
  · have hleast : (2 : ℚ) ^ minExponent ≤ 2 ^ (0 : ℤ) :=
      zpow_le_zpow_right₀ one_le_two (by decide)
    have := (abs_le.mp herr).2
    rw [he] at this
    rw [zpow_zero] at hleast
    linarith

end Workbench.Binary64
