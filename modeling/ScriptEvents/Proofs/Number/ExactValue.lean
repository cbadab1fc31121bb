import Mathlib.Algebra.Order.Field.Rat
import Mathlib.Tactic.FieldSimp
import Mathlib.Tactic.Linarith
import Mathlib.Tactic.NormNum
import Mathlib.Tactic.Ring
import ScriptEvents.Number
/-!
The exact value of a floating-point number, as a rational one. It says when a number counts as an
integer, and as which one. Apart from the zeros, no two numbers have the same.
-/
namespace ScriptEvents

namespace Binary64

/-- The value that the fields of the 64 bits stand for. The infinities and what is no number have
none. -/
def value? (x : Binary64) : Option ℚ :=
  let sign : ℕ := x.bits.toNat / 2 ^ 63
  let exponent : ℕ := x.bits.toNat / 2 ^ 52 % 2 ^ 11
  let fraction : ℕ := x.bits.toNat % 2 ^ 52
  if exponent = 2047 then none
  else if exponent = 0 then some ((-1) ^ sign * (fraction / 2 ^ 52) * 2 ^ (-1022 : ℤ))
  else some ((-1) ^ sign * (1 + fraction / 2 ^ 52) * 2 ^ ((exponent : ℤ) - 1023))

def magnitude (x : Binary64) : ℚ :=
  x.significand * 2 ^ ((x.shift : ℤ) - 1074)

variable {x : Binary64}

theorem biasedExponent_eq (x : Binary64) : x.biasedExponent = x.bits.toNat / 2 ^ 52 % 2 ^ 11 := by
  rw [biasedExponent, Nat.shiftRight_eq_div_pow]
  rfl

theorem sign_eq (x : Binary64) :
    ((-1) ^ (x.bits.toNat / 2 ^ 63) : ℚ) = if x.isNegative then -1 else 1 := by
  have hbits := x.bits.toNat_lt
  by_cases negative : 2 ^ 63 ≤ x.bits.toNat
  · have hsign : x.bits.toNat / 2 ^ 63 = 1 := by omega
    rw [hsign, if_pos (by simpa [isNegative] using negative), pow_one]
  · have hsign : x.bits.toNat / 2 ^ 63 = 0 := by omega
    rw [hsign, if_neg (by simpa [isNegative] using negative), pow_zero]

theorem zpow_sub_places (e : ℤ) : (2 : ℚ) ^ (e - 52) = 2 ^ e / 2 ^ 52 := by
  rw [zpow_sub₀ two_ne_zero]
  rfl

theorem magnitude_of_subnormal (h : x.biasedExponent = 0) :
    x.magnitude = x.fraction / 2 ^ 52 * 2 ^ (-1022 : ℤ) := by
  have hexponent : ((0 - 1 : ℕ) : ℤ) - 1074 = -1022 - 52 := by norm_num
  rw [magnitude, significand, if_pos h, shift, h, hexponent, zpow_sub_places, mul_div_assoc',
    div_mul_eq_mul_div]

theorem magnitude_of_normal (h : x.biasedExponent ≠ 0) :
    x.magnitude = (1 + x.fraction / 2 ^ 52) * 2 ^ ((x.biasedExponent : ℤ) - 1023) := by
  have hexponent : ((x.biasedExponent - 1 : ℕ) : ℤ) - 1074 = x.biasedExponent - 1023 - 52 := by
    omega
  rw [magnitude, significand, if_neg h, shift, hexponent, zpow_sub_places]
  push_cast
  field_simp
  norm_num

theorem value?_of_finite (finite : x.isFinite = true) :
    x.value? = some ((if x.isNegative then -1 else 1) * x.magnitude) := by
  have hmax : x.biasedExponent ≠ 2047 := by simpa [isFinite] using finite
  simp only [value?, ← biasedExponent_eq, sign_eq, if_neg hmax]
  split
  next h => rw [magnitude_of_subnormal h, mul_assoc]; rfl
  next h => rw [magnitude_of_normal h, mul_assoc]; rfl

theorem value?_of_not_finite (h : x.isFinite = false) : x.value? = none := by
  have hmax : x.biasedExponent = 2047 := by simpa [isFinite] using h
  simp only [value?, ← biasedExponent_eq, if_pos hmax]

theorem natAbs?_eq_some_iff (finite : x.isFinite = true) (k : ℕ) :
    x.natAbs? = some k ↔ x.magnitude = k := by
  rw [natAbs?, if_neg (by simp [finite]), magnitude]
  split
  next large =>
    have hexponent : (x.shift : ℤ) - 1074 = (x.shift - 1074 : ℕ) := by omega
    rw [hexponent, zpow_natCast, Option.some_inj, Nat.shiftLeft_eq]
    norm_cast
  next small =>
    have hexponent : (x.shift : ℤ) - 1074 = -(1074 - x.shift : ℕ) := by omega
    rw [hexponent, zpow_neg, zpow_natCast, Nat.one_shiftLeft]
    generalize 1074 - x.shift = places
    have positive : 0 < 2 ^ places := Nat.two_pow_pos places
    -- Both sides say that the significand is `k` units.
    have units : (x.significand : ℚ) * (2 ^ places)⁻¹ = k ↔ x.significand = k * 2 ^ places := by
      rw [mul_inv_eq_iff_eq_mul₀ (by positivity)]
      norm_cast
    simp only [Option.ite_none_right_eq_some, Option.some_inj, units]
    constructor
    · rintro ⟨whole, rfl⟩
      exact (Nat.div_mul_cancel (Nat.dvd_of_mod_eq_zero whole)).symm
    · intro h
      rw [h]
      exact ⟨Nat.mul_mod_left k _, Nat.mul_div_cancel k positive⟩

theorem magnitude_nonneg (x : Binary64) : 0 ≤ x.magnitude :=
  mul_nonneg (Nat.cast_nonneg _) (zpow_nonneg zero_le_two _)

/-- A number counts as an integer just when that is its exact value. -/
theorem toInt?_eq_some_iff (x : Binary64) (n : ℤ) :
    x.toInt? = some n ↔ x.value? = some (n : ℚ) := by
  cases finite : x.isFinite with
  | false => simp [toInt?, natAbs?, finite, value?_of_not_finite finite]
  | true =>
    rw [value?_of_finite finite, Option.some_inj, toInt?, Option.map_eq_some_iff]
    constructor
    · rintro ⟨k, hk, rfl⟩
      rw [(natAbs?_eq_some_iff finite k).1 hk]
      split <;> simp
    · intro h
      have hnonneg := x.magnitude_nonneg
      refine ⟨n.natAbs, (natAbs?_eq_some_iff finite _).2 ?_, ?_⟩
      · rw [Nat.cast_natAbs, Int.cast_abs, ← h]
        split <;> simp [abs_of_nonneg hnonneg]
      · by_cases negative : x.isNegative = true
        · rw [if_pos negative] at h ⊢
          have below : (n : ℚ) ≤ 0 := by linarith
          have below : n ≤ 0 := by exact_mod_cast below
          omega
        · rw [if_neg negative] at h ⊢
          have above : (0 : ℚ) ≤ n := by linarith
          have above : 0 ≤ n := by exact_mod_cast above
          omega

theorem significand_lt (x : Binary64) : x.significand < 2 ^ 53 := by
  have hfraction : x.fraction < 2 ^ 52 := Nat.mod_lt _ (by decide)
  rw [significand]
  split <;> omega

theorem le_significand (h : 0 < x.shift) : 2 ^ 52 ≤ x.significand := by
  rw [shift] at h
  rw [significand, if_neg (by omega)]
  exact Nat.le_add_right _ _

variable {y : Binary64} {q : ℚ}

theorem shift_le (h : x.significand * 2 ^ x.shift = y.significand * 2 ^ y.shift) :
    y.shift ≤ x.shift := by
  by_contra finer
  rw [Nat.not_le] at finer
  have large : 2 ^ 52 ≤ y.significand := le_significand (by omega)
  have least : 2 ^ 53 * 2 ^ x.shift ≤ y.significand * 2 ^ y.shift := by
    calc
      2 ^ 53 * 2 ^ x.shift = 2 ^ 52 * 2 ^ (x.shift + 1) := by ring
      _ ≤ y.significand * 2 ^ y.shift :=
        Nat.mul_le_mul large (Nat.pow_le_pow_right (by decide) finer)
  have greatest : x.significand * 2 ^ x.shift < 2 ^ 53 * 2 ^ x.shift :=
    Nat.mul_lt_mul_of_pos_right x.significand_lt (Nat.two_pow_pos _)
  omega

theorem eq_of_magnitude (h : x.magnitude = y.magnitude) :
    x.shift = y.shift ∧ x.significand = y.significand := by
  have scaled : x.significand * 2 ^ x.shift = y.significand * 2 ^ y.shift := by
    have scale (z : Binary64) :
        z.magnitude = (z.significand * 2 ^ z.shift : ℕ) * 2 ^ (-1074 : ℤ) := by
      rw [magnitude, sub_eq_add_neg, zpow_add₀ two_ne_zero, zpow_natCast, ← mul_assoc,
        Nat.cast_mul, Nat.cast_pow, Nat.cast_ofNat]
    rw [scale, scale, mul_left_inj' (zpow_ne_zero _ two_ne_zero)] at h
    exact_mod_cast h
  have same : x.shift = y.shift := Nat.le_antisymm (shift_le scaled.symm) (shift_le scaled)
  rw [same] at scaled
  exact ⟨same, Nat.eq_of_mul_eq_mul_right (Nat.two_pow_pos _) scaled⟩

theorem ext_of_magnitude (sign : x.isNegative = y.isNegative) (h : x.magnitude = y.magnitude) :
    x = y := by
  obtain ⟨shift_eq, significand_eq⟩ := eq_of_magnitude h
  have fraction_lt (z : Binary64) : z.fraction < 2 ^ 52 := Nat.mod_lt _ (by decide)
  have hx := fraction_lt x
  have hy := fraction_lt y
  have parts : x.biasedExponent = y.biasedExponent ∧ x.fraction = y.fraction := by
    simp only [shift, significand] at shift_eq significand_eq
    split at significand_eq <;> split at significand_eq <;> omega
  have sign : 2 ^ 63 ≤ x.bits.toNat ↔ 2 ^ 63 ≤ y.bits.toNat := by
    simpa [isNegative] using sign
  rw [biasedExponent_eq, biasedExponent_eq, fraction, fraction] at parts
  have hbits : x.bits.toNat = y.bits.toNat := by
    have := x.bits.toNat_lt
    have := y.bits.toNat_lt
    omega
  cases x
  cases y
  exact congrArg mk (UInt64.toNat_inj.1 hbits)

theorem isZero_of_magnitude (h : x.magnitude = 0) : x.isZero = true := by
  have none : x.significand = 0 := by
    have nonzero : (2 : ℚ) ^ ((x.shift : ℤ) - 1074) ≠ 0 := zpow_ne_zero _ two_ne_zero
    rw [magnitude, mul_eq_zero, or_iff_left nonzero] at h
    exact_mod_cast h
  rw [significand] at none
  rw [isZero, Bool.and_eq_true, beq_iff_eq, beq_iff_eq]
  split at none <;> omega

theorem eq_or_isZero_of_value? (hx : x.value? = some q) (hy : y.value? = some q) :
    x = y ∨ x.isZero = true ∧ y.isZero = true := by
  have finite {z : Binary64} (hz : z.value? = some q) :
      (if z.isNegative then -1 else 1) * z.magnitude = q := by
    cases hfinite : z.isFinite with
    | false => cases (value?_of_not_finite hfinite).symm.trans hz
    | true => exact Option.some.inj ((value?_of_finite hfinite).symm.trans hz)
  have hq := (finite hx).trans (finite hy).symm
  by_cases sign : x.isNegative = y.isNegative
  · refine .inl (ext_of_magnitude sign ?_)
    rw [sign] at hq
    split at hq <;> linarith
  · -- Of two numbers with unlike signs neither has anything on its own side of zero.
    have hxpos := x.magnitude_nonneg
    have hypos := y.magnitude_nonneg
    have opposite : x.magnitude + y.magnitude = 0 := by
      split at hq
      next negative =>
        have positive : ¬ y.isNegative = true := fun hy => sign (negative.trans hy.symm)
        rw [if_neg positive] at hq
        linarith
      next positive =>
        rw [Bool.not_eq_true] at positive
        have negative : y.isNegative = true :=
          Bool.eq_true_of_not_eq_false fun hy => sign (positive.trans hy.symm)
        rw [if_pos negative] at hq
        linarith
    exact .inr ⟨isZero_of_magnitude (by linarith), isZero_of_magnitude (by linarith)⟩

/-- The zero below zero. It is the same number as the other one, but not the same bits. -/
def negativeZero : Binary64 := ⟨0x8000000000000000⟩

theorem eq_zero_of_isZero (zero : x.isZero = true) (h : x ≠ negativeZero) : x = ⟨0⟩ := by
  rw [isZero, Bool.and_eq_true, beq_iff_eq, beq_iff_eq, biasedExponent_eq, fraction] at zero
  have hbits := x.bits.toNat_lt
  have two : x.bits.toNat = 0 ∨ x.bits.toNat = 2 ^ 63 := by omega
  cases x
  rcases two with h0 | h1
  · exact congrArg mk (UInt64.toNat_inj.1 h0)
  · exact absurd (congrArg mk (UInt64.toNat_inj.1 h1)) h

/-- Numbers other than the negative zero are told apart by their values. -/
theorem value?_inj (hx : x.value? = some q) (hy : y.value? = some q) (hxz : x ≠ negativeZero)
    (hyz : y ≠ negativeZero) : x = y := by
  rcases eq_or_isZero_of_value? hx hy with same | ⟨hx, hy⟩
  · exact same
  · rw [eq_zero_of_isZero hx hxz, eq_zero_of_isZero hy hyz]

theorem sameNumber_iff {q' : ℚ} (hx : x.value? = some q) (hy : y.value? = some q')
    (hxz : x ≠ negativeZero) (hyz : y ≠ negativeZero) : x.sameNumber y = true ↔ x = y := by
  have number {z : Binary64} {q : ℚ} (hz : z.value? = some q) : z.isNaN = false := by
    cases hfinite : z.isFinite with
    | false => cases (value?_of_not_finite hfinite).symm.trans hz
    | true => rw [isNaN, hfinite]; rfl
  rw [sameNumber, number hx, number hy]
  simp only [Bool.not_false, Bool.true_and, Bool.or_eq_true, beq_iff_eq, Bool.and_eq_true]
  constructor
  · rintro (same | ⟨zero, zero'⟩)
    · exact same
    · rw [eq_zero_of_isZero zero hxz, eq_zero_of_isZero zero' hyz]
  · exact .inl

end Binary64

end ScriptEvents
