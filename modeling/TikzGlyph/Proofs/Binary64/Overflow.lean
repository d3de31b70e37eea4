import TikzGlyph.Binary64.Numeral
import TikzGlyph.Proofs.Binary64.Arithmetic
import TikzGlyph.Proofs.Binary64.ShortestDigits

/-!
# Numerals that are too large

A numeral is read as a finite number exactly if its value is below `overflow`. The two bounds on the
place of its first digit, past which no power of ten is formed, agree with that.
-/

namespace TikzGlyph

namespace Binary64

/-- The least number that is rounded to an infinite one is half a gap below the next power of
two. -/
theorem overflow_eq : overflow = 2 ^ 1024 - 2 ^ 970 := by
  have countEq : magnitudeCount - 1 + 1 = magnitudeCount := by decide
  have nextEq : value magnitudeCount = 2 ^ 1024 := by
    rw [value, units_magnitudeCount, Nat.cast_mul, mul_div_assoc, div_self unitsOfOne_pos.ne',
      mul_one, Nat.cast_pow, Nat.cast_ofNat]
  have lastEq : 2 ^ lastPlace (magnitudeCount - 1) = 2 ^ (970 + 1) * unitsOfOne := by
    decide +kernel
  have gapEq : gap (magnitudeCount - 1) = 2 ^ (970 + 1) := by
    have castEq := congrArg (Nat.cast : Nat → ℚ) lastEq
    rw [Nat.cast_mul, Nat.cast_pow, Nat.cast_pow, Nat.cast_ofNat] at castEq
    rw [gap, castEq, mul_div_assoc, div_self unitsOfOne_pos.ne', mul_one]
  rw [overflow, midpoint_eq_sub, countEq, nextEq, gapEq, pow_succ (2 : ℚ) 970,
    mul_div_assoc, div_self two_ne_zero, mul_one]

theorem one_lt_overflow : 1 < overflow := by
  have unitsLe : unitsOfOne ≤ units (magnitudeCount - 1) := by
    rw [← units_one]
    exact units_strictMono.monotone (by decide)
  have oneLe : 1 ≤ value (magnitudeCount - 1) := by
    rw [value, one_le_div unitsOfOne_pos]
    exact Nat.cast_le.mpr unitsLe
  exact oneLe.trans_lt (value_lt_midpoint _)

theorem overflow_le : overflow ≤ 10 ^ 310 := by
  have powerLe : 2 ^ 1024 ≤ 10 ^ 310 := by decide +kernel
  have castLe : ((2 ^ 1024 : Nat) : ℚ) ≤ (10 ^ 310 : Nat) := Nat.cast_le.mpr powerLe
  rw [Nat.cast_pow, Nat.cast_pow, Nat.cast_ofNat, Nat.cast_ofNat] at castLe
  rw [overflow_eq]
  exact (sub_le_self _ (by positivity)).trans castLe

theorem rounds_ofScientific (negative : Bool) (digits : Nat) (exponent : Int) :
    Rounds negative (digits * 10 ^ exponent) (ofScientific negative digits exponent) := by
  rw [ofScientific]
  split
  · rename_i nonneg
    rcases Int.eq_ofNat_of_zero_le nonneg with ⟨places, rfl⟩
    have rounds := rounds_ofQuotient negative (digits * 10 ^ places) Nat.one_pos
    rw [Nat.cast_one, div_one, Nat.cast_mul, Nat.cast_pow, Nat.cast_ofNat] at rounds
    rw [zpow_natCast]
    exact rounds
  · rename_i negativeExponent
    rcases Int.eq_ofNat_of_zero_le (by omega : 0 ≤ -exponent) with ⟨places, exponentEq⟩
    have denominatorPos : 0 < 10 ^ places := Nat.pow_pos (by decide)
    have rounds := rounds_ofQuotient negative digits denominatorPos
    rw [Nat.cast_pow, Nat.cast_ofNat] at rounds
    have valueEq : (digits : ℚ) * 10 ^ exponent = digits / 10 ^ places := by
      rw [← neg_neg exponent, exponentEq, zpow_neg, zpow_natCast, div_eq_mul_inv]
    rw [valueEq, exponentEq]
    exact rounds

end Binary64

namespace Numeral

open Binary64

/-- The size of a numeral. -/
def magnitude (numeral : Numeral) : ℚ := numeral.digits * 10 ^ numeral.exponent

/-- The place of the first digit tells between which powers of ten a numeral lies. -/
theorem magnitude_bounds {numeral : Numeral} (positive : 0 < numeral.digits) :
    (10 : ℚ) ^ (digitCount numeral.digits + numeral.exponent - 1) ≤ numeral.magnitude ∧
      numeral.magnitude < 10 ^ (digitCount numeral.digits + numeral.exponent) := by
  rcases exists_digitCount_eq positive with ⟨fewer, above, below, countEq⟩
  have tenPos : (0 : ℚ) < 10 ^ numeral.exponent := by positivity
  have lowerEq : (digitCount numeral.digits : Int) + numeral.exponent - 1 =
      fewer + numeral.exponent := by
    rw [countEq]
    omega
  have aboveCast : (10 : ℚ) ^ fewer ≤ numeral.digits := by exact_mod_cast above
  have belowCast : (numeral.digits : ℚ) < 10 ^ (fewer + 1) := by exact_mod_cast below
  rw [lowerEq, countEq, magnitude, zpow_add₀ (by norm_num), zpow_add₀ (by norm_num),
    zpow_natCast, zpow_natCast]
  exact ⟨mul_le_mul_of_nonneg_right aboveCast tenPos.le,
    mul_lt_mul_of_pos_right belowCast tenPos⟩

theorem isFinite_nearest_iff (numeral : Numeral) :
    numeral.nearest.IsFinite ↔ numeral.magnitude < overflow := by
  rcases Nat.eq_zero_or_pos numeral.digits with noDigit | positive
  · have zeroEq : numeral.nearest = .zero numeral.negative := by
      rw [nearest]
      exact if_pos (Or.inl noDigit)
    rw [zeroEq, magnitude, noDigit, Nat.cast_zero, zero_mul]
    exact iff_of_true trivial (one_pos.trans one_lt_overflow)
  · rcases magnitude_bounds positive with ⟨above, below⟩
    rw [nearest]
    simp only [positive.ne', false_or]
    split
    · rename_i tiny
      apply iff_of_true trivial
      have leOne : (10 : ℚ) ^ (digitCount numeral.digits + numeral.exponent) ≤ 1 :=
        zpow_le_one_of_nonpos₀ (by norm_num) (by omega)
      exact (below.trans_le leOne).trans one_lt_overflow
    · split
      · rename_i huge
        apply iff_of_false id
        rw [not_lt]
        have powerLe : (10 : ℚ) ^ 310 ≤
            10 ^ (digitCount numeral.digits + numeral.exponent - 1) := by
          rw [← zpow_natCast]
          exact zpow_le_zpow_right₀ (by norm_num) (by omega)
        exact overflow_le.trans (powerLe.trans above)
      · exact (rounds_ofScientific _ _ _).isFinite_iff

end Numeral

end TikzGlyph
