import TikzGlyph.Binary64.Rounding
import TikzGlyph.Proofs.Binary64.Spacing

/-!
# Nearest magnitudes

Rounding gives the magnitude that a number is nearest to: the number lies between the midpoints on
both sides of the magnitude, and on a midpoint only if the code is even. Midpoints grow with the
code, so this determines the code. A magnitude is its own rounding, a normal number changes by one
drift at most, and a number that is a few drifts away from one that rounds to a code rounds as many
codes away.
-/

namespace TikzGlyph

namespace Binary64

/-- A number is rounded to the magnitude with a code. -/
structure IsNearest (code : Nat) (number : ℚ) : Prop where
  le_midpoint : number ≤ midpoint code
  midpoint_le : ∀ lower, code = lower + 1 → midpoint lower ≤ number
  even_of_eq : number = midpoint code → code % 2 = 0
  even_of_lower_eq : ∀ lower, code = lower + 1 → midpoint lower = number → code % 2 = 0

/-! ## Nearest whole numbers -/

/-- A whole number is nearest to another number: it is at most one half away, and exactly one half
only if it is even. -/
structure IsNearestWhole (whole : Nat) (number : ℚ) : Prop where
  le_add_half : number ≤ whole + 1 / 2
  sub_half_le : (whole : ℚ) - 1 / 2 ≤ number
  even_of_eq_add : number = whole + 1 / 2 → whole % 2 = 0
  even_of_eq_sub : (whole : ℚ) - 1 / 2 = number → whole % 2 = 0

namespace IsNearestWhole

variable {whole bound : Nat} {number : ℚ}

theorem le_of_lt (near : IsNearestWhole whole number) (below : number < bound) :
    whole ≤ bound := by
  have above := near.sub_half_le
  have cast : (whole : ℚ) < (bound + 1 : Nat) := by
    push_cast
    linarith
  exact Nat.lt_succ_iff.mp (Nat.cast_lt.mp cast)

theorem le_of_le (near : IsNearestWhole whole number) (above : (bound : ℚ) ≤ number) :
    bound ≤ whole := by
  have below := near.le_add_half
  have cast : (bound : ℚ) < (whole + 1 : Nat) := by
    push_cast
    linarith
  exact Nat.lt_succ_iff.mp (Nat.cast_lt.mp cast)

end IsNearestWhole

theorem div_eq_quotient_add {denominator : Nat} (positive : 0 < denominator) (numerator : Nat) :
    (numerator : ℚ) / denominator =
      (numerator / denominator : Nat) + (numerator % denominator : Nat) / denominator := by
  have cast : (denominator : ℚ) ≠ 0 := Nat.cast_ne_zero.mpr positive.ne'
  have whole := congrArg (Nat.cast : Nat → ℚ) (Nat.div_add_mod' numerator denominator)
  rw [Nat.cast_add, Nat.cast_mul] at whole
  field_simp
  linarith

theorem isNearestWhole_nearestQuotient {denominator : Nat} (positive : 0 < denominator)
    (numerator : Nat) :
    IsNearestWhole (nearestQuotient numerator denominator) (numerator / denominator) := by
  have remainderLt := Nat.mod_lt numerator positive
  rw [div_eq_quotient_add positive, nearestQuotient]
  generalize numerator / denominator = quotient at *
  generalize numerator % denominator = remainder at *
  have cast : (0 : ℚ) < denominator := Nat.cast_pos.mpr positive
  have partNonneg : (0 : ℚ) ≤ remainder / denominator := by positivity
  have partLt : (remainder : ℚ) / denominator < 1 :=
    (div_lt_one cast).mpr (Nat.cast_lt.mpr remainderLt)
  have halfLeIff : (1 : ℚ) / 2 ≤ remainder / denominator ↔ denominator ≤ 2 * remainder := by
    rw [div_le_div_iff₀ (by norm_num) cast, ← @Nat.cast_le ℚ, Nat.cast_mul]
    norm_num [mul_comm]
  have leHalfIff : (remainder : ℚ) / denominator ≤ 1 / 2 ↔ 2 * remainder ≤ denominator := by
    rw [div_le_div_iff₀ cast (by norm_num), ← @Nat.cast_le ℚ, Nat.cast_mul]
    norm_num [mul_comm]
  split
  · rename_i up
    have halfLe := halfLeIff.mpr (by omega)
    refine ⟨?_, ?_, ?_, ?_⟩
    · push_cast
      linarith
    · push_cast
      linarith
    · intro tie
      push_cast at tie
      linarith
    · intro tie
      push_cast at tie
      have leHalf := leHalfIff.mp (by linarith)
      omega
  · rename_i down
    have leHalf := leHalfIff.mpr (by omega)
    refine ⟨?_, ?_, ?_, ?_⟩
    · linarith
    · linarith
    · intro tie
      have halfLe := halfLeIff.mp (by linarith)
      omega
    · intro tie
      linarith

/-! ## The place of the last digit -/

/-- The place that rounding chooses leaves as many digits as a significand has. -/
theorem excessPlaces_spec {denominator : Nat} (positive : 0 < denominator) (numerator : Nat) :
    numerator <
        2 * fractionCount * (denominator * 2 ^ excessPlaces (numerator / denominator)) ∧
      (excessPlaces (numerator / denominator) = 0 ∨
        fractionCount * (denominator * 2 ^ excessPlaces (numerator / denominator)) ≤
          numerator) := by
  rw [excessPlaces]
  split
  · rename_i small
    rw [Nat.pow_zero, Nat.mul_one]
    exact ⟨(Nat.div_lt_iff_lt_mul positive).mp small, Or.inl rfl⟩
  · rename_i large
    have nonzero : numerator / denominator ≠ 0 := by
      intro zero
      rw [zero] at large
      exact large (by decide)
    have high : 53 ≤ Nat.log2 (numerator / denominator) :=
      (Nat.le_log2 nonzero).mpr (Nat.le_of_not_lt large)
    rcases Nat.exists_eq_add_of_le high with ⟨place, placeEq⟩
    have above : 2 ^ (53 + place) ≤ numerator / denominator :=
      placeEq ▸ Nat.log2_self_le nonzero
    have below : numerator / denominator < 2 ^ (53 + place + 1) :=
      placeEq ▸ Nat.lt_log2_self
    have placeEq : Nat.log2 (numerator / denominator) - 52 = place + 1 := by omega
    rw [placeEq, fractionCount_eq]
    refine ⟨?_, Or.inr ?_⟩
    · calc
        numerator < 2 ^ (53 + place + 1) * denominator := (Nat.div_lt_iff_lt_mul positive).mp below
        _ = 2 * 2 ^ 52 * (denominator * 2 ^ (place + 1)) := by ring
    · calc
        2 ^ 52 * (denominator * 2 ^ (place + 1)) = 2 ^ (53 + place) * denominator := by ring
        _ ≤ numerator := (Nat.le_div_iff_mul_le positive).mp above

theorem value_of_parts {place digits : Nat} (bounded : digits ≤ 2 * fractionCount)
    (normal : fractionCount ≤ digits ∨ place = 0) :
    value (place * fractionCount + digits) = digits * (2 ^ place / unitsOfOne) := by
  simp only [value, units_of_parts bounded normal, Nat.cast_mul, Nat.cast_pow, Nat.cast_ofNat]
  ring

theorem gap_of_parts {place digits : Nat} (bounded : digits < 2 * fractionCount)
    (normal : fractionCount ≤ digits ∨ place = 0) :
    gap (place * fractionCount + digits) = 2 ^ place / unitsOfOne := by
  have next : value (place * fractionCount + (digits + 1)) =
      (digits + 1 : Nat) * (2 ^ place / unitsOfOne) :=
    value_of_parts bounded (normal.imp_left Nat.le_succ_of_le)
  rw [← Nat.add_assoc, value_succ, value_of_parts bounded.le normal, Nat.cast_succ] at next
  linarith

theorem le_gap_of_parts {place digits : Nat} (bounded : digits ≤ 2 * fractionCount)
    (normal : fractionCount ≤ digits ∨ place = 0) :
    2 ^ place / unitsOfOne ≤ gap (place * fractionCount + digits) := by
  have positive : 0 < fractionCount := by decide
  rcases Nat.lt_or_eq_of_le bounded with small | rfl
  · exact (gap_of_parts small normal).ge
  · have earlier : gap (place * fractionCount + (2 * fractionCount - 1)) =
        2 ^ place / unitsOfOne := gap_of_parts (by omega) (Or.inl (by omega))
    rw [← earlier]
    exact gap_mono (by omega)

/-! ## Rounding -/

/-- The step below a power of two is shorter, but then the number is not below the power. -/
theorem le_or_gap_eq {place digits lower : Nat} {steps : ℚ} (bounded : digits ≤ 2 * fractionCount)
    (normal : fractionCount ≤ digits ∨ place = 0)
    (leading : place = 0 ∨ (fractionCount : ℚ) ≤ steps)
    (codeEq : place * fractionCount + digits = lower + 1) :
    digits ≤ steps ∨ gap lower = 2 ^ place / unitsOfOne := by
  by_cases lowest : digits ≤ fractionCount ∧ place ≠ 0
  · left
    have digitsLe : (digits : ℚ) ≤ fractionCount := Nat.cast_le.mpr lowest.1
    exact digitsLe.trans (leading.resolve_left lowest.2)
  · right
    have lowerEq : lower = place * fractionCount + (digits - 1) := by
      rcases normal with large | rfl
      · have positive : 0 < fractionCount := by decide
        omega
      · omega
    rw [lowerEq, gap_of_parts (by omega) (by omega)]

theorem parts_mod_two {place digits : Nat} (even : digits % 2 = 0) :
    (place * fractionCount + digits) % 2 = 0 := by
  have fractionsEven : fractionCount % 2 = 0 := by decide
  simp [Nat.add_mod, Nat.mul_mod, fractionsEven, even]

/-- The nearest whole number of steps in a place is a nearest magnitude. -/
theorem isNearest_of_parts {place digits : Nat} {steps : ℚ} (near : IsNearestWhole digits steps)
    (few : steps < (2 * fractionCount : Nat)) (leading : place = 0 ∨ (fractionCount : ℚ) ≤ steps) :
    IsNearest (place * fractionCount + digits) (steps * (2 ^ place / unitsOfOne)) := by
  have bounded : digits ≤ 2 * fractionCount := near.le_of_lt few
  have normal : fractionCount ≤ digits ∨ place = 0 := leading.symm.imp_left near.le_of_le
  have unitPos : (0 : ℚ) < 2 ^ place / unitsOfOne := div_pos (by positivity) unitsOfOne_pos
  have valueCode := value_of_parts bounded normal
  have wide := le_gap_of_parts bounded normal
  have belowOrGapEq : ∀ lower, place * fractionCount + digits = lower + 1 →
      digits ≤ steps ∨ gap lower = 2 ^ place / unitsOfOne :=
    fun _ => le_or_gap_eq bounded normal leading
  generalize (2 : ℚ) ^ place / unitsOfOne = unit at *
  have scaledLe : steps * unit ≤ (digits + 1 / 2) * unit :=
    mul_le_mul_of_nonneg_right near.le_add_half unitPos.le
  have leScaled : (digits - 1 / 2) * unit ≤ steps * unit :=
    mul_le_mul_of_nonneg_right near.sub_half_le unitPos.le
  refine ⟨?_, ?_, ?_, ?_⟩
  · rw [midpoint_eq, valueCode]
    linarith
  · intro lower codeEq
    rw [midpoint_eq_sub, ← codeEq, valueCode]
    rcases belowOrGapEq lower codeEq with below | gapEq
    · have belowScaled := mul_le_mul_of_nonneg_right below unitPos.le
      linarith [gap_pos lower]
    · linarith
  · intro tie
    apply parts_mod_two
    apply near.even_of_eq_add
    rw [midpoint_eq, valueCode] at tie
    apply mul_right_cancel₀ unitPos.ne'
    linarith
  · intro lower codeEq tie
    apply parts_mod_two
    apply near.even_of_eq_sub
    rw [midpoint_eq_sub, ← codeEq, valueCode] at tie
    apply mul_right_cancel₀ unitPos.ne'
    rcases belowOrGapEq lower codeEq with below | gapEq
    · have belowScaled := mul_le_mul_of_nonneg_right below unitPos.le
      linarith [gap_pos lower]
    · linarith

/-- Rounding gives a nearest magnitude. -/
theorem isNearest_nearestCode {denominator : Nat} (positive : 0 < denominator) (numerator : Nat) :
    IsNearest (nearestCode numerator denominator) (numerator / denominator / unitsOfOne) := by
  rcases excessPlaces_spec positive numerator with ⟨few, leading⟩
  simp only [nearestCode, Nat.pow_eq]
  generalize excessPlaces (numerator / denominator) = place at *
  have stepPositive : 0 < denominator * 2 ^ place := by positivity
  have near := isNearestWhole_nearestQuotient stepPositive numerator
  generalize nearestQuotient numerator (denominator * 2 ^ place) = digits at *
  have stepCast : (0 : ℚ) < (denominator * 2 ^ place : Nat) := Nat.cast_pos.mpr stepPositive
  have numberEq : (numerator : ℚ) / denominator / unitsOfOne =
      numerator / (denominator * 2 ^ place : Nat) * (2 ^ place / unitsOfOne) := by
    generalize (unitsOfOne : ℚ) = one
    push_cast
    field_simp
  rw [numberEq]
  apply isNearest_of_parts near
  · rw [div_lt_iff₀ stepCast]
    exact_mod_cast few
  · refine leading.imp_right fun large => ?_
    rw [le_div_iff₀ stepCast]
    exact_mod_cast large

namespace IsNearest

variable {code other : Nat} {number : ℚ}

theorem le_of_lt (near : IsNearest code number) (below : number < midpoint other) :
    code ≤ other := by
  apply Nat.le_of_not_lt
  intro later
  rcases Nat.exists_eq_add_of_lt later with ⟨lower, rfl⟩
  have between := near.midpoint_le (other + lower) rfl
  have ordered := midpoint_strictMono.monotone (Nat.le_add_right other lower)
  linarith

theorem le_of_isNearest (near : IsNearest code number) (also : IsNearest other number) :
    code ≤ other := by
  apply Nat.le_of_not_lt
  intro later
  rcases Nat.exists_eq_add_of_lt later with ⟨lower, rfl⟩
  have between := near.midpoint_le (other + lower) rfl
  have ordered := midpoint_strictMono.monotone (Nat.le_add_right other lower)
  have same : midpoint other = midpoint (other + lower) := by linarith [also.le_midpoint]
  have even := near.even_of_lower_eq (other + lower) rfl (by linarith [also.le_midpoint])
  have alsoEven := also.even_of_eq (by linarith [also.le_midpoint])
  have noStep := midpoint_strictMono.injective same
  omega

theorem unique (near : IsNearest code number) (also : IsNearest other number) : code = other :=
  Nat.le_antisymm (near.le_of_isNearest also) (also.le_of_isNearest near)

end IsNearest

theorem isNearest_value (code : Nat) : IsNearest code (value code) := by
  refine ⟨(value_lt_midpoint code).le, ?_, ?_, ?_⟩
  · rintro lower rfl
    exact (midpoint_lt_value_succ lower).le
  · intro tie
    exact absurd tie (value_lt_midpoint code).ne
  · rintro lower rfl tie
    exact absurd tie (midpoint_lt_value_succ lower).ne

/-- A few binary digits with any power of two are rounded to themselves. -/
theorem value_of_isNearest {code digits : Nat} (few : digits ≤ 2 ^ 53) (place : Nat)
    (near : IsNearest code ((digits * 2 ^ place : Nat) : ℚ)) :
    value code = (digits * 2 ^ place : Nat) := by
  rcases exists_unitsOfOne_eq with ⟨placeOfOne, unitsOfOneEq⟩
  rcases exists_units_eq few (place + placeOfOne) with ⟨exactCode, unitsEq⟩
  have valueEq : value exactCode = (digits * 2 ^ place : Nat) := by
    rw [value, unitsEq, div_eq_iff unitsOfOne_pos.ne', unitsOfOneEq, ← Nat.cast_mul,
      Nat.pow_add, Nat.mul_assoc]
  rw [← valueEq] at near ⊢
  rw [near.unique (isNearest_value exactCode)]

/-! ## Numbers that have drifted -/

/-- Each of two numbers is at most so many drifts larger than the other. -/
structure WithinDrifts (count : Nat) (left right : ℚ) : Prop where
  le : left ≤ drift ^ count * right
  ge : right ≤ drift ^ count * left

namespace WithinDrifts

variable {count more : Nat} {left right other first second : ℚ}

theorem refl (number : ℚ) : WithinDrifts 0 number number := by
  constructor <;> simp

theorem eq_of_zero (within : WithinDrifts 0 left right) : left = right := by
  apply le_antisymm
  · simpa using within.le
  · simpa using within.ge

theorem symm (within : WithinDrifts count left right) : WithinDrifts count right left :=
  ⟨within.ge, within.le⟩

theorem right_pos (within : WithinDrifts count left right) (positive : 0 < left) : 0 < right :=
  pos_of_mul_pos_right (positive.trans_le within.le) (pow_pos drift_pos _).le

theorem mono (within : WithinDrifts count left right) (positive : 0 < left) (le : count ≤ more) :
    WithinDrifts more left right := by
  have powers : drift ^ count ≤ drift ^ more := pow_le_pow_right₀ one_lt_drift.le le
  exact ⟨within.le.trans (mul_le_mul_of_nonneg_right powers (within.right_pos positive).le),
    within.ge.trans (mul_le_mul_of_nonneg_right powers positive.le)⟩

theorem trans (earlier : WithinDrifts count left right) (later : WithinDrifts more right other) :
    WithinDrifts (count + more) left other := by
  have countPos : 0 < drift ^ count := pow_pos drift_pos _
  have morePos : 0 < drift ^ more := pow_pos drift_pos _
  constructor
  · calc
      left ≤ drift ^ count * right := earlier.le
      _ ≤ drift ^ count * (drift ^ more * other) := mul_le_mul_of_nonneg_left later.le countPos.le
      _ = drift ^ (count + more) * other := by ring
  · calc
      other ≤ drift ^ more * right := later.ge
      _ ≤ drift ^ more * (drift ^ count * left) := mul_le_mul_of_nonneg_left earlier.ge morePos.le
      _ = drift ^ (count + more) * left := by ring

theorem mul (within : WithinDrifts count left right) (also : WithinDrifts more first second)
    (leftPos : 0 < left) (rightPos : 0 < right) (firstPos : 0 < first)
    (secondPos : 0 < second) :
    WithinDrifts (count + more) (left * first) (right * second) := by
  have countPos : 0 < drift ^ count := pow_pos drift_pos _
  constructor
  · calc
      left * first ≤ (drift ^ count * right) * (drift ^ more * second) :=
        mul_le_mul within.le also.le firstPos.le (mul_pos countPos rightPos).le
      _ = drift ^ (count + more) * (right * second) := by ring
  · calc
      right * second ≤ (drift ^ count * left) * (drift ^ more * first) :=
        mul_le_mul within.ge also.ge secondPos.le (mul_pos countPos leftPos).le
      _ = drift ^ (count + more) * (left * first) := by ring

theorem inv (within : WithinDrifts count left right) (leftPos : 0 < left)
    (rightPos : 0 < right) : WithinDrifts count left⁻¹ right⁻¹ := by
  constructor
  · rw [← div_eq_mul_inv, inv_eq_one_div, div_le_div_iff₀ leftPos rightPos, one_mul]
    exact within.ge
  · rw [← div_eq_mul_inv, inv_eq_one_div, div_le_div_iff₀ rightPos leftPos, one_mul]
    exact within.le

theorem div (within : WithinDrifts count left right) (also : WithinDrifts more first second)
    (leftPos : 0 < left) (rightPos : 0 < right) (firstPos : 0 < first)
    (secondPos : 0 < second) :
    WithinDrifts (count + more) (left / first) (right / second) := by
  rw [div_eq_mul_inv, div_eq_mul_inv]
  exact within.mul (also.inv firstPos secondPos) leftPos rightPos (inv_pos.mpr firstPos)
    (inv_pos.mpr secondPos)

end WithinDrifts

/-- Where half a gap is some drifts at most, rounding is so many drifts at most. -/
theorem IsNearest.withinDrifts_of_gap {code base count : Nat} {number : ℚ}
    (near : IsNearest code number)
    (fine : ∀ other, base ≤ other → gap other / 2 ≤ (drift ^ count - 1) * value other)
    (large : value base ≤ number) : WithinDrifts count (value code) number := by
  have oneLe : 1 ≤ drift ^ count := one_le_pow₀ one_lt_drift.le
  have baseLe : base ≤ code := by
    apply Nat.le_of_not_lt
    intro earlier
    have ordered := midpoint_lt_value_succ code
    have later := value_strictMono.monotone earlier
    linarith [near.le_midpoint]
  constructor
  · rcases Nat.lt_or_eq_of_le baseLe with later | rfl
    · rcases Nat.exists_eq_succ_of_ne_zero (Nat.ne_of_gt (Nat.zero_lt_of_lt later)) with
        ⟨lower, rfl⟩
      have above := near.midpoint_le lower rfl
      have halfGap := fine lower (Nat.lt_succ_iff.mp later)
      have positive := gap_pos lower
      rw [midpoint_eq] at above
      have scaled : (drift ^ count - 1) * value lower ≤ (drift ^ count - 1) * number :=
        mul_le_mul_of_nonneg_left (by linarith) (by linarith)
      rw [Nat.succ_eq_add_one, value_succ]
      linarith
    · have scaled : 1 * number ≤ drift ^ count * number :=
        mul_le_mul_of_nonneg_right oneLe ((value_nonneg base).trans large)
      linarith
  · have above := near.le_midpoint
    have halfGap := fine code baseLe
    rw [midpoint_eq] at above
    linarith

theorem half_gap_le {base count code : Nat} (few : base ≤ fractionCount)
    (fine : 1 ≤ 2 * ((drift ^ count - 1) * base)) (large : base ≤ code) :
    gap code / 2 ≤ (drift ^ count - 1) * value code := by
  have positive := gap_pos code
  have changeNonneg : 0 ≤ drift ^ count - 1 := sub_nonneg.mpr (one_le_pow₀ one_lt_drift.le)
  have digitsLe : (base : ℚ) ≤ significand code := Nat.cast_le.mpr (le_significand few large)
  have scaled := mul_le_mul_of_nonneg_left digitsLe changeNonneg
  calc
    gap code / 2 ≤ (drift ^ count - 1) * significand code * gap code := by
      have halfLe : 1 / 2 ≤ (drift ^ count - 1) * significand code := by linarith
      have gapLe := mul_le_mul_of_nonneg_right halfLe positive.le
      linarith
    _ = (drift ^ count - 1) * value code := by
      rw [value_eq]
      ring

/-- Rounding to a normal number is at most one drift. -/
theorem IsNearest.withinDrifts {code : Nat} {number : ℚ} (near : IsNearest code number)
    (normal : value fractionCount ≤ number) : WithinDrifts 1 (value code) number := by
  refine near.withinDrifts_of_gap (fun other => half_gap_le (Nat.le_refl _) ?_) normal
  norm_num [drift, fractionCount_eq]

/-- A number that has drifted from another one is rounded to a code that is at most as many codes
larger. -/
theorem IsNearest.le_add {code other count : Nat} {number original : ℚ}
    (near : IsNearest code original) (drifted : IsNearest other number)
    (within : WithinDrifts count number original) : other ≤ code + count := by
  rcases Nat.eq_zero_or_pos count with rfl | positive
  · rw [within.eq_of_zero] at drifted
    exact (drifted.unique near).le
  · apply drifted.le_of_lt
    calc
      number ≤ drift ^ count * original := within.le
      _ ≤ drift ^ count * midpoint code :=
        mul_le_mul_of_nonneg_left near.le_midpoint (pow_pos drift_pos _).le
      _ < midpoint (code + count) := drift_pow_mul_midpoint_lt positive code

end Binary64

end TikzGlyph
