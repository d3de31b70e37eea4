import Mathlib.Algebra.Order.Field.Power
import TikzGlyph.Json.Number
import TikzGlyph.Proofs.Binary64.Arithmetic

/-!
# Reading decimal numbers in steps

A JSON number is read by rounding its significand, rounding a power of ten, and multiplying or
dividing the two. Small significands and small powers of ten are exact, so `inexactSteps` counts the
steps before the last that may change the number. The number that is read is at most as many codes
away from the nearest one. Where two divisions are needed, the quotient in between is a normal
number and the second power of ten is exact, or the result has so few digits that all drifts
together change its code by two at most.
-/

namespace TikzGlyph

namespace Json

open Binary64

/-- The steps of reading `digits * 10 ^ exponent`, the last one aside, that may change the
number: its significand may have too many binary digits, its power of ten may, and it may be
divided twice. -/
def inexactSteps (digits : Nat) (exponent : Int) : Nat :=
  (if digits ≤ 2 ^ 53 then 0 else 1) + (if exponent.natAbs ≤ 22 then 0 else 1)
    + (if -308 ≤ exponent then 0 else 1)

/-! ## Significands and powers of ten -/

theorem value_fractionCount_le_one : value fractionCount ≤ 1 := by
  have unitsLe : units fractionCount ≤ unitsOfOne := by
    rw [← units_one]
    exact units_strictMono.monotone (by decide)
  rw [value, div_le_one unitsOfOne_pos]
  exact Nat.cast_le.mpr unitsLe

theorem ten_pow_lt_overflow : (10 : ℚ) ^ largestPower < overflow := by
  have unitsLe : 10 ^ largestPower * unitsOfOne ≤ units (magnitudeCount - 1) := by decide +kernel
  have leLargest : (10 : ℚ) ^ largestPower ≤ value (magnitudeCount - 1) := by
    rw [value, le_div_iff₀ unitsOfOne_pos]
    exact_mod_cast unitsLe
  exact leLargest.trans_lt (value_lt_midpoint _)

/-- A whole number below the largest power of ten is read with at most one rounding, and exactly if
it has few binary digits at some place. -/
theorem exists_ofNat {number : Nat} (positive : 0 < number)
    (bounded : number ≤ 10 ^ largestPower) :
    ∃ magnitude, ofNat false number = .finite false magnitude ∧
      WithinDrifts 1 (value magnitude) number ∧
      ∀ digits place, digits ≤ 2 ^ 53 → number = digits * 2 ^ place →
        WithinDrifts 0 (value magnitude) number := by
  have numberLe : (number : ℚ) ≤ 10 ^ largestPower := by exact_mod_cast bounded
  rcases (rounds_ofNat false number).exists_finite (numberLe.trans_lt ten_pow_lt_overflow) with
    ⟨magnitude, near, resultEq⟩
  refine ⟨magnitude, resultEq, ?_, ?_⟩
  · apply near.withinDrifts
    have oneLe : (1 : ℚ) ≤ number := Nat.one_le_cast.mpr positive
    exact value_fractionCount_le_one.trans oneLe
  · rintro digits place few rfl
    rw [value_of_isNearest few place near]
    exact .refl _

theorem exists_significand {digits : Nat} (positive : 0 < digits) (bounded : digits < 2 ^ 64) :
    ∃ magnitude, ofNat false digits = .finite false magnitude ∧
      WithinDrifts (if digits ≤ 2 ^ 53 then 0 else 1) (value magnitude) digits := by
  have lePower : 2 ^ 64 ≤ 10 ^ largestPower :=
    (by decide : 2 ^ 64 ≤ 10 ^ 20).trans (Nat.pow_le_pow_right (by decide) (by decide))
  rcases exists_ofNat positive (bounded.le.trans lePower) with
    ⟨magnitude, resultEq, within, exactly⟩
  refine ⟨magnitude, resultEq, ?_⟩
  split
  · rename_i few
    exact exactly digits 0 few (Nat.mul_one digits).symm
  · exact within

theorem exists_powerOfTen {exponent : Nat} (small : exponent ≤ largestPower) :
    ∃ magnitude, powerOfTen exponent = .finite false magnitude ∧
      WithinDrifts (if exponent ≤ 22 then 0 else 1) (value magnitude) (10 ^ exponent) := by
  rcases exists_ofNat (Nat.pow_pos (by decide)) (Nat.pow_le_pow_right (by decide) small) with
    ⟨magnitude, resultEq, within, exactly⟩
  rw [Nat.cast_pow, Nat.cast_ofNat] at within exactly
  refine ⟨magnitude, resultEq, ?_⟩
  split
  · rename_i few
    have digitsLe : 5 ^ exponent ≤ 2 ^ 53 :=
      (Nat.pow_le_pow_right (by decide) few).trans (by decide)
    apply exactly (5 ^ exponent) exponent digitsLe
    rw [← Nat.mul_pow]
  · exact within

/-! ## One step -/

/-- Multiplying by a power of ten, or dividing by one, gives a number that is off by the drifts of
the significand and of the power. -/
theorem exists_scale? {magnitude : Fin magnitudeCount} {count : Nat} {number : ℚ}
    (within : WithinDrifts count (value magnitude) number) (positive : 0 < value magnitude)
    {exponent : Int} (small : exponent.natAbs ≤ largestPower) :
    ∃ result read, scale? (.finite false magnitude) exponent = some result ∧
      Rounds false read result ∧ 0 < read ∧
      WithinDrifts (count + if exponent.natAbs ≤ 22 then 0 else 1) read
        (number * 10 ^ exponent) := by
  rcases exists_powerOfTen small with ⟨power, powerEq, powerWithin⟩
  have tenPos : (0 : ℚ) < 10 ^ exponent.natAbs := by positivity
  have numberPos := within.right_pos positive
  have powerPos := powerWithin.symm.right_pos tenPos
  rw [scale?, if_pos small, powerEq]
  split
  · rename_i nonneg
    refine ⟨_, _, rfl, rounds_mul false false magnitude power, mul_pos positive powerPos, ?_⟩
    have tenEq : (10 : ℚ) ^ exponent = 10 ^ exponent.natAbs := by
      rw [← zpow_natCast, Int.natAbs_of_nonneg nonneg]
    rw [tenEq]
    exact within.mul powerWithin positive numberPos powerPos tenPos
  · rename_i negative
    have nonzero : power.val ≠ 0 := by
      intro zero
      rw [zero, value_zero] at powerPos
      exact powerPos.false
    refine ⟨_, _, rfl, rounds_div false false magnitude nonzero, div_pos positive powerPos, ?_⟩
    have tenEq : number * (10 : ℚ) ^ exponent = number / 10 ^ exponent.natAbs := by
      have exponentEq : exponent = -(exponent.natAbs : Int) := by omega
      rw [exponentEq, Int.natAbs_neg, Int.natAbs_natCast, zpow_neg, zpow_natCast, div_eq_mul_inv]
    rw [tenEq]
    exact within.div powerWithin positive numberPos powerPos tenPos

/-! ## Two steps -/

theorem div_powerOfTen_lt_overflow (magnitude : Fin magnitudeCount) {power : Nat}
    (within : WithinDrifts 1 (value power) (10 ^ largestPower)) :
    value magnitude / value power < overflow := by
  have oneLe : 1 ≤ value power := by
    have twoLe : 2 ≤ 10 ^ largestPower :=
      (by decide : 2 ≤ 10).trans (Nat.le_self_pow (by decide) 10)
    have tenLe : (2 : ℚ) ≤ 10 ^ largestPower := by exact_mod_cast twoLe
    have drifted := within.ge
    rw [pow_one, drift] at drifted
    linarith
  calc
    value magnitude / value power ≤ value magnitude := div_le_self (value_nonneg _) oneLe
    _ ≤ value (magnitudeCount - 1) :=
      value_strictMono.monotone (Nat.le_sub_one_of_lt magnitude.isLt)
    _ < overflow := value_lt_midpoint _

/-- A power of ten that is no finite number is divided by twice. The quotient in between is off by
one more rounding, which may be a coarse one below the normal numbers. -/
theorem exists_scale?_twice {magnitude : Fin magnitudeCount} {count between base : Nat}
    {number : ℚ} (within : WithinDrifts count (value magnitude) number)
    (positive : 0 < value magnitude) {exponent : Int} (large : exponent < -308)
    (bounded : -616 ≤ exponent)
    (fine : ∀ code, base ≤ code → gap code / 2 ≤ (drift ^ between - 1) * value code)
    (above : drift ^ (count + 1) * value base ≤ number / 10 ^ largestPower) :
    ∃ result read, scale? (.finite false magnitude) exponent = some result ∧
      Rounds false read result ∧ 0 < read ∧
      WithinDrifts (count + 1 + between + if (exponent + 308).natAbs ≤ 22 then 0 else 1) read
        (number * 10 ^ exponent) := by
  rcases exists_powerOfTen (Nat.le_refl largestPower) with ⟨power, powerEq, powerWithin⟩
  rw [if_neg (by decide)] at powerWithin
  have tenPos : (0 : ℚ) < 10 ^ largestPower := by positivity
  have numberPos := within.right_pos positive
  have powerPos := powerWithin.symm.right_pos tenPos
  have quotientPos := div_pos positive powerPos
  have nonzero : power.val ≠ 0 := by
    intro zero
    rw [zero, value_zero] at powerPos
    exact powerPos.false
  have quotientWithin : WithinDrifts (count + 1) (value magnitude / value power)
      (number / 10 ^ largestPower) := within.div powerWithin positive numberPos powerPos tenPos
  have largeQuotient : value base ≤ value magnitude / value power :=
    le_of_mul_le_mul_left (above.trans quotientWithin.ge) (pow_pos drift_pos _)
  rcases (rounds_div false false magnitude nonzero).exists_finite
      (div_powerOfTen_lt_overflow magnitude powerWithin) with
    ⟨quotient, near, quotientEq⟩
  have roundedWithin := (near.withinDrifts_of_gap fine largeQuotient).trans quotientWithin
  rcases @exists_scale? _ _ _ roundedWithin
      (roundedWithin.symm.right_pos (div_pos numberPos tenPos)) (exponent + 308)
      (by simp only [largestPower]; omega) with
    ⟨result, read, scaled, rounds, readPos, readWithin⟩
  refine ⟨result, read, ?_, rounds, readPos, ?_⟩
  · have notZero : Binary64.finite false magnitude ≠ .zero false := by
      rintro ⟨⟩
      exact (value_zero ▸ positive).false
    rw [scale?, if_neg (by simp only [largestPower]; omega), if_neg notZero, if_neg (by omega),
      powerEq, quotientEq]
    exact scaled
  · have exponentEq : number / 10 ^ largestPower * (10 : ℚ) ^ (exponent + 308) =
        number * 10 ^ exponent := by
      rw [zpow_add₀ (by norm_num)]
      simp only [largestPower]
      field_simp
    rw [exponentEq, Nat.add_comm between] at readWithin
    exact readWithin

/-! ## Written numbers -/

section Written

variable {code digits : Nat} {exponent : Int}

theorem exponent_le (near : IsNearest code (digits * 10 ^ exponent))
    (bounded : code < magnitudeCount) (positive : 0 < digits) : exponent ≤ 308 := by
  have unitsLe : units magnitudeCount ≤ 10 ^ 309 * unitsOfOne := by decide +kernel
  have overflowLt : overflow < 10 ^ (309 : Int) := by
    have lePower : value magnitudeCount ≤ 10 ^ 309 := by
      rw [value, div_le_iff₀ unitsOfOne_pos]
      exact_mod_cast unitsLe
    exact (midpoint_lt_value_succ (magnitudeCount - 1)).trans_le lePower
  have oneLe : (1 : ℚ) ≤ digits := Nat.one_le_cast.mpr positive
  have powerLt : (10 : ℚ) ^ exponent < 10 ^ (309 : Int) := by
    calc
      (10 : ℚ) ^ exponent ≤ digits * 10 ^ exponent := le_mul_of_one_le_left (by positivity) oneLe
      _ < overflow := near.lt_magnitudeCount_iff.mp bounded
      _ < 10 ^ (309 : Int) := overflowLt
  have exponentLt := (zpow_lt_zpow_iff_right₀ (by norm_num)).mp powerLt
  omega

/-- Seventeen digits reach a power of ten only with an exponent that is not much less. -/
theorem le_exponent {bound : Int} (few : digits ≤ 10 ^ 17)
    (reached : (10 : ℚ) ^ bound ≤ digits * 10 ^ exponent) : bound ≤ 17 + exponent := by
  have digitsLe : (digits : ℚ) ≤ 10 ^ (17 : Int) := by exact_mod_cast few
  have powerLe : (10 : ℚ) ^ bound ≤ 10 ^ (17 + exponent) := by
    rw [zpow_add₀ (by norm_num)]
    exact reached.trans (mul_le_mul_of_nonneg_right digitsLe (by positivity))
  exact (zpow_le_zpow_iff_right₀ (by norm_num)).mp powerLe

theorem midpoint_of_lt (small : code < fractionCount) :
    midpoint code = (code + 1 / 2) / unitsOfOne := by
  have valueEq : value (0 * fractionCount + code) = code * (2 ^ 0 / unitsOfOne) :=
    value_of_parts (by omega) (Or.inr rfl)
  have gapEq : gap (0 * fractionCount + code) = 2 ^ 0 / unitsOfOne :=
    gap_of_parts (by omega) (Or.inr rfl)
  rw [Nat.zero_mul, Nat.zero_add] at valueEq gapEq
  rw [midpoint_eq, valueEq, gapEq]
  ring

/-- Deep below the normal numbers, a few drifts do not reach far. -/
theorem le_add_two {other : Nat} {number original : ℚ} (near : IsNearest code original)
    (drifted : IsNearest other number) (within : WithinDrifts 7 number original)
    (small : code < 2 ^ 50) : other ≤ code + 2 := by
  have onePos := unitsOfOne_pos
  have codeLt : (code : ℚ) + 1 ≤ 2 ^ 50 := by exact_mod_cast small
  have driftLe : drift ^ 7 ≤ 1 + 1 / 2 ^ 50 := by norm_num [drift]
  apply drifted.le_of_lt
  calc
    number ≤ drift ^ 7 * original := within.le
    _ ≤ drift ^ 7 * midpoint code :=
      mul_le_mul_of_nonneg_left near.le_midpoint (pow_pos drift_pos _).le
    _ ≤ (1 + 1 / 2 ^ 50) * midpoint code :=
      mul_le_mul_of_nonneg_right driftLe (midpoint_pos code).le
    _ < midpoint (code + 2) := by
      have laterSmall : code + 2 < fractionCount := by
        rw [fractionCount_eq]
        omega
      rw [midpoint_of_lt (by omega), midpoint_of_lt laterSmall, ← mul_div_assoc,
        div_lt_div_iff_of_pos_right onePos]
      push_cast
      linarith

theorem drift_pow_mul_value_le {count base : Nat} (few : count ≤ 2)
    (small : 5 * (units base * 10 ^ largestPower) ≤ 4 * (digits * unitsOfOne)) :
    drift ^ count * value base ≤ digits / 10 ^ largestPower := by
  have driftLe : drift ^ count ≤ 5 / 4 := by
    calc
      drift ^ count ≤ drift ^ 2 := pow_le_pow_right₀ one_lt_drift.le few
      _ ≤ 5 / 4 := by norm_num [drift]
  have smallCast : (5 * (units base * 10 ^ largestPower) : ℚ) ≤ 4 * (digits * unitsOfOne) := by
    exact_mod_cast small
  have onePos := unitsOfOne_pos
  calc
    drift ^ count * value base ≤ 5 / 4 * value base :=
      mul_le_mul_of_nonneg_right driftLe (value_nonneg base)
    _ ≤ digits / 10 ^ largestPower := by
      rw [value, ← mul_div_assoc, div_le_div_iff₀ onePos (by positivity)]
      linarith

/-- Not too deep below the normal numbers, the quotient in between is a normal number and the second
power of ten is exact. -/
theorem three_le_digits (near : IsNearest code (digits * 10 ^ exponent)) (large : 2 ^ 49 ≤ code)
    (far : exponent < -308) (few : digits ≤ 10 ^ 17) : 3 ≤ digits ∧ -326 ≤ exponent := by
  have onePos := unitsOfOne_pos
  have tenPos : (0 : ℚ) < 10 ^ (largestPower + 1) := by positivity
  have unitsLt : 2 * unitsOfOne + 10 ^ (largestPower + 1) < 2 ^ 49 * 10 ^ (largestPower + 1) := by
    decide +kernel
  have reached : 2 * (10 : ℚ) ^ (-((largestPower + 1 : Nat) : Int)) < digits * 10 ^ exponent := by
    have existsBase : ∃ base, 2 ^ 49 = base + 1 := ⟨2 ^ 49 - 1, rfl⟩
    rcases existsBase with ⟨base, baseEq⟩
    rcases Nat.exists_eq_succ_of_ne_zero (Nat.ne_of_gt (Nat.zero_lt_of_lt large)) with ⟨lower, rfl⟩
    have baseSmall : base < fractionCount := by
      rw [fractionCount_eq]
      omega
    rw [zpow_neg, zpow_natCast, ← div_eq_mul_inv]
    calc
      2 / (10 : ℚ) ^ (largestPower + 1) < midpoint base := by
        rw [baseEq] at unitsLt
        rw [midpoint_of_lt baseSmall, div_lt_div_iff₀ tenPos onePos]
        have castLt : (2 * unitsOfOne + 10 ^ (largestPower + 1) : ℚ) <
            (base + 1) * 10 ^ (largestPower + 1) := by exact_mod_cast unitsLt
        linarith
      _ ≤ midpoint lower := midpoint_strictMono.monotone (by omega)
      _ ≤ digits * 10 ^ exponent := near.midpoint_le lower rfl
  constructor
  · have powerLe : (10 : ℚ) ^ exponent ≤ 10 ^ (-((largestPower + 1 : Nat) : Int)) := by
      apply zpow_le_zpow_right₀ (by norm_num)
      simp only [largestPower]
      omega
    have digitsLt := reached.trans_le (mul_le_mul_of_nonneg_left powerLe (Nat.cast_nonneg digits))
    have twoLt := lt_of_mul_lt_mul_right digitsLt (by positivity)
    exact_mod_cast twoLt
  · have bound := le_exponent few
      ((le_mul_of_one_le_left (by positivity) (by norm_num)).trans reached.le)
    simp only [largestPower] at bound
    omega

theorem neg_616_le (near : IsNearest code (digits * 10 ^ exponent)) (nonzero : 0 < code)
    (few : digits ≤ 10 ^ 17) : -616 ≤ exponent := by
  have onePos := unitsOfOne_pos
  rcases Nat.exists_eq_succ_of_ne_zero (Nat.ne_of_gt nonzero) with ⟨lower, rfl⟩
  have reached : (10 : ℚ) ^ (-((largestPower + 16 : Nat) : Int)) ≤ digits * 10 ^ exponent := by
    have unitsLe : 2 * unitsOfOne ≤ 10 ^ (largestPower + 16) := by decide +kernel
    have castLe : (2 * unitsOfOne : ℚ) ≤ 10 ^ (largestPower + 16) := by exact_mod_cast unitsLe
    rw [zpow_neg, zpow_natCast, inv_eq_one_div]
    calc
      1 / (10 : ℚ) ^ (largestPower + 16) ≤ midpoint 0 := by
        rw [midpoint_of_lt (by decide), div_le_div_iff₀ (by positivity) onePos]
        rw [Nat.cast_zero, zero_add, one_mul]
        linarith
      _ ≤ midpoint lower := midpoint_strictMono.monotone (Nat.zero_le lower)
      _ ≤ digits * 10 ^ exponent := near.midpoint_le lower rfl
  have bound := le_exponent few reached
  simp only [largestPower] at bound
  omega

/-- A number that is divided twice is at most as many codes away from the nearest one as there are
inexact steps. -/
theorem exists_scale?_near_of_far {magnitude : Fin magnitudeCount}
    (near : IsNearest code (digits * 10 ^ exponent)) (nonzero : 0 < code) (positive : 0 < digits)
    (few : digits ≤ 10 ^ 17) (far : exponent < -308)
    (within : WithinDrifts (if digits ≤ 2 ^ 53 then 0 else 1) (value magnitude) digits) :
    ∃ other, scale? (.finite false magnitude) exponent = some (ofCode false other) ∧
      other ≤ code + inexactSteps digits exponent ∧
      code ≤ other + inexactSteps digits exponent := by
  have magnitudePos := within.symm.right_pos (Nat.cast_pos.mpr positive)
  have notFar := neg_616_le near nonzero few
  have stepsEq : inexactSteps digits exponent = (if digits ≤ 2 ^ 53 then 0 else 1) + 1 + 1 := by
    rw [inexactSteps, if_neg (by omega : ¬-308 ≤ exponent),
      if_neg (by omega : ¬exponent.natAbs ≤ 22)]
  have fewSteps : (if digits ≤ 2 ^ 53 then 0 else 1) + 1 ≤ 2 := by
    split <;> omega
  rw [stepsEq]
  rcases Nat.lt_or_ge code (2 ^ 49) with deep | high
  · have baseSmall : 5 * (units (2 ^ 50) * 10 ^ largestPower) ≤ 4 * (digits * unitsOfOne) := by
      have closed : 5 * (units (2 ^ 50) * 10 ^ largestPower) ≤ 4 * (1 * unitsOfOne) := by
        decide +kernel
      exact closed.trans (Nat.mul_le_mul_left 4 (Nat.mul_le_mul_right _ positive))
    have fine : ∀ other, 2 ^ 50 ≤ other → gap other / 2 ≤ (drift ^ 4 - 1) * value other :=
      fun other => half_gap_le (by decide) (by norm_num [drift])
    rcases exists_scale?_twice within magnitudePos far notFar fine
        (drift_pow_mul_value_le fewSteps baseSmall) with
      ⟨result, read, scaled, ⟨other, otherNear, rfl⟩, readPos, readWithin⟩
    have withinSeven := readWithin.mono readPos (by split <;> split <;> omega : _ ≤ 7)
    have above := le_add_two near otherNear withinSeven (by omega)
    have below := le_add_two otherNear near withinSeven.symm (by omega)
    exact ⟨other, scaled, by omega, by omega⟩
  · rcases three_le_digits near high far few with ⟨threeLe, notDeep⟩
    have baseSmall : 5 * (units fractionCount * 10 ^ largestPower) ≤
        4 * (digits * unitsOfOne) := by
      have closed : 5 * (units fractionCount * 10 ^ largestPower) ≤ 4 * (3 * unitsOfOne) := by
        decide +kernel
      exact closed.trans (Nat.mul_le_mul_left 4 (Nat.mul_le_mul_right _ threeLe))
    have fine : ∀ other, fractionCount ≤ other →
        gap other / 2 ≤ (drift ^ 1 - 1) * value other :=
      fun other => half_gap_le (Nat.le_refl _) (by norm_num [drift, fractionCount_eq])
    rcases exists_scale?_twice within magnitudePos far notFar fine
        (drift_pow_mul_value_le fewSteps baseSmall) with
      ⟨result, read, scaled, ⟨other, otherNear, rfl⟩, readPos, readWithin⟩
    rw [if_pos (by omega : (exponent + 308).natAbs ≤ 22), Nat.add_zero] at readWithin
    exact ⟨other, scaled, near.le_add otherNear readWithin,
      otherNear.le_add near readWithin.symm⟩

/-- The number that is read is at most as many codes away from the nearest one as there are inexact
steps. -/
theorem exists_scale?_near (near : IsNearest code (digits * 10 ^ exponent))
    (bounded : code < magnitudeCount) (nonzero : 0 < code) (positive : 0 < digits)
    (few : digits ≤ 10 ^ 17) :
    ∃ other, scale? (ofNat false digits) exponent = some (ofCode false other) ∧
      other ≤ code + inexactSteps digits exponent ∧
      code ≤ other + inexactSteps digits exponent := by
  have fewPlaces : (10 : Nat) ^ 17 < 2 ^ 64 := by decide
  rcases exists_significand positive (few.trans_lt fewPlaces) with ⟨magnitude, digitsEq, within⟩
  have atMost := exponent_le near bounded positive
  rw [digitsEq]
  by_cases once : -308 ≤ exponent
  · have small : exponent.natAbs ≤ largestPower := by
      simp only [largestPower]
      omega
    rcases exists_scale? within (within.symm.right_pos (Nat.cast_pos.mpr positive)) small with
      ⟨result, read, scaled, ⟨other, otherNear, rfl⟩, readPos, readWithin⟩
    rw [inexactSteps, if_pos once, Nat.add_zero]
    exact ⟨other, scaled, near.le_add otherNear readWithin,
      otherNear.le_add near readWithin.symm⟩
  · exact exists_scale?_near_of_far near nonzero positive few (by omega) within

end Written

end Json

end TikzGlyph
