import Mathlib.Algebra.Order.Field.Power
import Mathlib.Data.Nat.Cast.Order.Field
import TikzGlyph.Binary64.Shortest
import TikzGlyph.Proofs.Binary64.Nearest

/-!
# Shortest digits are nearest

The shortest decimal number of a magnitude is one that rounds to the magnitude. The search takes the
first grid with a point in the interval between the midpoints, and the grid of seventeen digits
always has one: the interval spans both halves of the gaps around the magnitude, and each of the two
gaps is more than the magnitude divided by `10 ^ 16`.
-/

namespace TikzGlyph

def Decimal.value (decimal : Decimal) : ℚ := decimal.digits * 10 ^ decimal.exponent

namespace Numeral

/-- The number of digits of a positive number tells between which powers of ten it lies. -/
theorem exists_digitCount_eq {number : Nat} (positive : 0 < number) :
    ∃ fewer, 10 ^ fewer ≤ number ∧ number < 10 ^ (fewer + 1) ∧ digitCount number = fewer + 1 := by
  have existsFewer : ∃ fewer, digitCount number = fewer + 1 :=
    Nat.exists_eq_succ_of_ne_zero (Nat.ne_of_gt Nat.length_toDigits_pos)
  rcases existsFewer with ⟨fewer, countEq⟩
  have countsIff {count : Nat} (counted : 0 < count) :
      digitCount number ≤ count ↔ number < 10 ^ count :=
    Nat.length_toDigits_le_iff (by decide) counted
  refine ⟨fewer, ?_, ?_, countEq⟩
  · apply Nat.le_of_not_lt
    intro small
    rcases Nat.eq_zero_or_pos fewer with rfl | more
    · rw [Nat.pow_zero] at small
      omega
    · have shorter := (countsIff more).mpr small
      omega
  · exact (countsIff (Nat.succ_pos fewer)).mp countEq.le

end Numeral

namespace Binary64

namespace Interval

/-- A number lies in an interval. -/
def Contains (bounds : Interval) (number : ℚ) : Prop :=
  if bounds.closed then
    bounds.lower ≤ number * bounds.scale ∧ number * bounds.scale ≤ bounds.upper
  else bounds.lower < number * bounds.scale ∧ number * bounds.scale < bounds.upper

theorem holds_iff (bounds : Interval) (whole : Nat) :
    bounds.holds whole = true ↔ bounds.Contains whole := by
  unfold holds Contains
  split <;>
  · simp only [Bool.and_eq_true, decide_eq_true_eq]
    norm_cast

/-- The point of a grid lies in an interval if its position lies in the interval measured in steps
of the grid. -/
theorem contains_descale (bounds : Interval) (exponent : Int) (number : ℚ) :
    (bounds.descale exponent).Contains number ↔ bounds.Contains (number * 10 ^ exponent) := by
  unfold descale
  split
  · rename_i nonneg
    rcases Int.eq_ofNat_of_zero_le nonneg with ⟨power, rfl⟩
    simp [Contains, mul_comm, mul_left_comm]
  · rename_i negative
    have existsPower : ∃ power : Nat, exponent = -power := ⟨(-exponent).toNat, by omega⟩
    rcases existsPower with ⟨power, rfl⟩
    have factorPos : (0 : ℚ) < 10 ^ power := by positivity
    have scaledEq : number * 10 ^ (-(power : Int)) * bounds.scale * 10 ^ power =
        number * bounds.scale := by
      rw [zpow_neg, zpow_natCast]
      field_simp
    simp only [Contains, neg_neg, Int.toNat_natCast, Nat.pow_eq, Nat.cast_mul, Nat.cast_pow,
      Nat.cast_ofNat, ← scaledEq, mul_le_mul_iff_left₀ factorPos, mul_lt_mul_iff_left₀ factorPos]

/-- The middle of an interval. -/
def center (bounds : Interval) : ℚ := bounds.middle / bounds.scale

theorem center_descale (bounds : Interval) (exponent : Int) :
    (bounds.descale exponent).center = bounds.center / 10 ^ exponent := by
  unfold descale center
  split
  · rename_i nonneg
    rcases Int.eq_ofNat_of_zero_le nonneg with ⟨power, rfl⟩
    simp [div_div]
  · rename_i negative
    have existsPower : ∃ power : Nat, exponent = -power := ⟨(-exponent).toNat, by omega⟩
    rcases existsPower with ⟨power, rfl⟩
    simp only [neg_neg, Int.toNat_natCast, Nat.pow_eq, Nat.cast_mul, Nat.cast_pow, Nat.cast_ofNat,
      zpow_neg, zpow_natCast, div_inv_eq_mul]
    ring

/-- What is found is one of the two whole numbers around the middle, and it lies in the interval. -/
theorem nearestWhole?_eq_some {tie : Tie} {bounds : Interval} {whole : Nat}
    (found : bounds.nearestWhole? tie = some whole) :
    bounds.Contains whole ∧
      (whole = bounds.middle / bounds.scale ∨ whole = bounds.middle / bounds.scale + 1) := by
  unfold nearestWhole? at found
  simp only at found
  split at found
  · rename_i holdsBelow
    split at found
    · rename_i holdsAbove
      have either : whole = bounds.middle / bounds.scale ∨
          whole = bounds.middle / bounds.scale + 1 := by
        split at found
        · exact Or.inl (Option.some.inj found).symm
        · split at found
          · exact Or.inr (Option.some.inj found).symm
          · cases tie with
            | upward => exact Or.inr (Option.some.inj found).symm
            | toEven =>
                have chosen := Option.some.inj found
                split at chosen
                · exact Or.inl chosen.symm
                · exact Or.inr chosen.symm
      refine ⟨?_, either⟩
      rcases either with rfl | rfl
      · exact (holds_iff _ _).mp holdsBelow
      · exact (holds_iff _ _).mp holdsAbove
    · cases found
      exact ⟨(holds_iff _ _).mp holdsBelow, Or.inl rfl⟩
  · split at found
    · rename_i holdsAbove
      cases found
      exact ⟨(holds_iff _ _).mp holdsAbove, Or.inr rfl⟩
    · cases found

theorem nearestWhole?_eq_none {tie : Tie} {bounds : Interval}
    (missing : bounds.nearestWhole? tie = none) :
    ¬bounds.Contains (bounds.middle / bounds.scale : Nat) ∧
      ¬bounds.Contains (bounds.middle / bounds.scale + 1 : Nat) := by
  rw [← holds_iff, ← holds_iff]
  unfold nearestWhole? at missing
  simp only at missing
  split at missing
  · split at missing
    · cases tie <;> split_ifs at missing
    · cases missing
  · rename_i notBelow
    split at missing
    · cases missing
    · rename_i notAbove
      exact ⟨notBelow, notAbove⟩

/-- The power of ten just above the middle. -/
theorem decimalPoint_spec {bounds : Interval} (scalePos : 0 < bounds.scale)
    (middlePos : 0 < bounds.middle) :
    (10 : ℚ) ^ (bounds.decimalPoint - 1) ≤ bounds.center ∧
      bounds.center < 10 ^ bounds.decimalPoint := by
  have scaleCast : (0 : ℚ) < bounds.scale := Nat.cast_pos.mpr scalePos
  have middleCast : (0 : ℚ) < bounds.middle := Nat.cast_pos.mpr middlePos
  unfold decimalPoint center
  split
  · rename_i large
    have quotientPos : 0 < bounds.middle / bounds.scale := Nat.div_pos large scalePos
    rcases Numeral.exists_digitCount_eq quotientPos with ⟨fewer, below, above, countEq⟩
    rw [Nat.le_div_iff_mul_le scalePos] at below
    rw [Nat.div_lt_iff_lt_mul scalePos] at above
    rw [countEq, Nat.cast_succ, add_sub_cancel_right, zpow_natCast, ← Nat.cast_succ, zpow_natCast,
      le_div_iff₀ scaleCast, div_lt_iff₀ scaleCast]
    exact_mod_cast And.intro below above
  · rename_i small
    have quotientPos : 0 < (bounds.scale - 1) / bounds.middle := Nat.div_pos (by omega) middlePos
    rcases Numeral.exists_digitCount_eq quotientPos with ⟨fewer, below, above, countEq⟩
    rw [Nat.le_div_iff_mul_le middlePos] at below
    rw [Nat.div_lt_iff_lt_mul middlePos] at above
    have pointEq : (1 : Int) - (fewer + 1 : Nat) = -fewer := by omega
    have beforeEq : -(fewer : Int) - 1 = -(fewer + 1 : Nat) := by omega
    rw [countEq, pointEq, beforeEq, zpow_neg, zpow_neg, zpow_natCast, zpow_natCast,
      inv_le_iff_one_le_mul₀ (by positivity), lt_inv_comm₀ (by positivity) (by positivity),
      inv_div, lt_div_iff₀ middleCast, div_mul_eq_mul_div, le_div_iff₀ scaleCast, one_mul]
    have belowLt : 10 ^ fewer * bounds.middle < bounds.scale := by omega
    have aboveLe : bounds.scale ≤ bounds.middle * 10 ^ (fewer + 1) := by
      rw [Nat.mul_comm]
      omega
    exact_mod_cast And.intro aboveLe belowLt

end Interval

/-! ## The interval of a magnitude -/

section Magnitude

variable {lower : Nat} {number : ℚ}

theorem scale_interval (code : Nat) : ((interval code).scale : ℚ) = 4 * unitsOfOne := by
  simp only [interval, Nat.cast_mul, Nat.cast_ofNat]

theorem scale_interval_pos (code : Nat) : 0 < (interval code).scale := by
  have positive := unitsOfOne_pos
  rw [← Nat.cast_pos (α := ℚ), scale_interval]
  linarith

theorem center_interval (code : Nat) : (interval code).center = value code := by
  have positive := unitsOfOne_pos
  rw [Interval.center, scale_interval]
  simp only [interval, value, Nat.cast_mul, Nat.cast_ofNat]
  field_simp

theorem upper_interval (code : Nat) :
    ((interval code).upper : ℚ) = midpoint code * (interval code).scale := by
  have positive := unitsOfOne_pos
  rw [scale_interval, midpoint_eq]
  simp only [interval, value, gap, Nat.pow_eq, Nat.cast_add, Nat.cast_mul, Nat.cast_pow,
    Nat.cast_ofNat]
  field_simp
  ring

theorem lower_interval (lower : Nat) :
    ((interval (lower + 1)).lower : ℚ) = midpoint lower * (interval (lower + 1)).scale := by
  have halfBelow : (interval (lower + 1)).lower + 2 * 2 ^ lastPlace lower =
      4 * units (lower + 1) := by
    have stepLe : 2 ^ lastPlace lower ≤ units (lower + 1) := by
      rw [units_succ]
      exact Nat.le_add_left _ _
    have placeEq := lastPlace_succ lower
    simp only [interval, Nat.pow_eq]
    split at placeEq
    · rename_i powerOfTwo
      rw [if_pos powerOfTwo, placeEq, Nat.pow_succ]
      omega
    · rename_i within
      rw [if_neg within, placeEq]
      omega
  have positive := unitsOfOne_pos
  have cast := congrArg (Nat.cast : Nat → ℚ) halfBelow
  push_cast at cast
  rw [scale_interval, midpoint_eq_sub, eq_sub_of_add_eq cast]
  simp only [value, gap]
  field_simp
  ring

theorem contains_interval_iff :
    (interval (lower + 1)).Contains number ↔
      if (lower + 1) % 2 = 0 then midpoint lower ≤ number ∧ number ≤ midpoint (lower + 1)
      else midpoint lower < number ∧ number < midpoint (lower + 1) := by
  have scalePos : (0 : ℚ) < (interval (lower + 1)).scale :=
    Nat.cast_pos.mpr (scale_interval_pos (lower + 1))
  have closedEq : (interval (lower + 1)).closed = decide ((lower + 1) % 2 = 0) := by
    rw [← significand_mod_two]
    rfl
  simp only [Interval.Contains, closedEq, upper_interval, lower_interval, decide_eq_true_eq,
    mul_le_mul_iff_left₀ scalePos, mul_lt_mul_iff_left₀ scalePos]

theorem isNearest_of_contains (contains : (interval (lower + 1)).Contains number) :
    IsNearest (lower + 1) number := by
  rw [contains_interval_iff] at contains
  split at contains
  · rename_i even
    refine ⟨contains.2, ?_, fun _ => even, fun _ _ _ => even⟩
    rintro _ ⟨⟩
    exact contains.1
  · refine ⟨contains.2.le, ?_, ?_, ?_⟩
    · rintro _ ⟨⟩
      exact contains.1.le
    · intro tie
      exact absurd tie contains.2.ne
    · rintro _ ⟨⟩ tie
      exact absurd tie contains.1.ne

theorem contains_of_between (above : midpoint lower < number)
    (below : number < midpoint (lower + 1)) : (interval (lower + 1)).Contains number := by
  rw [contains_interval_iff]
  split
  · exact ⟨above.le, below.le⟩
  · exact ⟨above, below⟩

/-- The interval has one of two neighbouring points around the magnitude if they are close
enough. -/
theorem contains_or_contains {step : ℚ} {below : Nat}
    (fine : 10 ^ 16 * step ≤ value (lower + 1)) (belowLe : below * step ≤ value (lower + 1))
    (ltAbove : value (lower + 1) < (below + 1 : Nat) * step) :
    (interval (lower + 1)).Contains (below * step) ∨
      (interval (lower + 1)).Contains ((below + 1 : Nat) * step) := by
  have gapBelow := gap_pos lower
  have gapAbove := gap_pos (lower + 1)
  have next := value_succ lower
  push_cast at ltAbove ⊢
  by_cases nearBelow : value (lower + 1) - gap lower / 2 < below * step
  · left
    apply contains_of_between
    · rwa [midpoint_eq_sub]
    · exact belowLe.trans_lt (value_lt_midpoint _)
  · by_cases nearAbove : (below + 1) * step < value (lower + 1) + gap (lower + 1) / 2
    · right
      apply contains_of_between
      · exact (midpoint_lt_value_succ lower).trans ltAbove
      · rwa [midpoint_eq]
    · have fewBelow := value_le_mul_gap lower
      have few := value_le_mul_gap (lower + 1)
      linarith

end Magnitude

/-! ## The search for a grid -/

namespace Interval

theorem scale_descale_pos {bounds : Interval} (scalePos : 0 < bounds.scale) (exponent : Int) :
    0 < (bounds.descale exponent).scale := by
  unfold descale
  split
  · exact Nat.mul_pos scalePos (Nat.pow_pos (by decide))
  · exact scalePos

theorem div_le_center (bounds : Interval) :
    ((bounds.middle / bounds.scale : Nat) : ℚ) ≤ bounds.center :=
  Nat.cast_div_le

theorem center_lt_div_succ {bounds : Interval} (scalePos : 0 < bounds.scale) :
    bounds.center < (bounds.middle / bounds.scale + 1 : Nat) := by
  rw [center, div_lt_iff₀ (Nat.cast_pos.mpr scalePos), ← Nat.cast_mul]
  exact Nat.cast_lt.mpr (Nat.lt_mul_of_div_lt (Nat.lt_succ_self _) scalePos)

end Interval

section Search

variable {tie : Tie} {bounds : Interval} {point : Int}

/-- What is found on a grid lies in the interval, and its digits are those of the grid or the first
power of ten after them. -/
theorem found_spec (belowPoint : bounds.center < 10 ^ point)
    {count whole : Nat}
    (found : (bounds.descale (point - count)).nearestWhole? tie = some whole) :
    bounds.Contains (whole * 10 ^ (point - count)) ∧ whole ≤ 10 ^ count := by
  rcases Interval.nearestWhole?_eq_some found with ⟨contains, either⟩
  refine ⟨(bounds.contains_descale _ _).mp contains, ?_⟩
  have centerLt : (bounds.descale (point - count)).center < (10 ^ count : Nat) := by
    rw [Interval.center_descale, div_lt_iff₀ (by positivity), Nat.cast_pow, Nat.cast_ofNat,
      ← zpow_natCast, ← zpow_add₀ (by norm_num), add_sub_cancel]
    exact belowPoint
  have belowLt := (Interval.div_le_center _).trans_lt centerLt
  rw [Nat.cast_lt] at belowLt
  omega

/-- What a search finds lies in the interval and has at most as many digits as the last grid. -/
theorem firstGrid_spec (belowPoint : bounds.center < 10 ^ point) {tries count last : Nat}
    (leLast : count ≤ last) (tried : count + tries = last + 1)
    (existsLast : ∃ whole, (bounds.descale (point - last)).nearestWhole? tie = some whole) :
    bounds.Contains (firstGrid tie bounds point tries count).value ∧
      (firstGrid tie bounds point tries count).digits ≤ 10 ^ last := by
  induction tries generalizing count with
  | zero => omega
  | succ tries ih =>
      rw [firstGrid]
      cases found : (bounds.descale (point - count)).nearestWhole? tie with
      | none =>
          have notLast : count ≠ last := by
            rintro rfl
            rcases existsLast with ⟨whole, wholeEq⟩
            rw [found] at wholeEq
            cases wholeEq
          simp only
          exact ih (by omega) (by omega)
      | some whole =>
          rcases found_spec belowPoint found with ⟨contains, digitsLe⟩
          simp only
          split
          · rename_i carried
            rw [carried, Nat.pow_eq, Nat.cast_pow, Nat.cast_ofNat, ← zpow_natCast,
              ← zpow_add₀ (by norm_num), add_sub_cancel] at contains
            refine ⟨?_, Nat.one_le_pow _ _ (by decide)⟩
            simpa [Decimal.value] using contains
          · exact ⟨contains, digitsLe.trans (Nat.pow_le_pow_right (by decide) leLast)⟩

end Search

/-- Seventeen digits suffice. -/
theorem exists_nearestWhole?_seventeen (tie : Tie) {lower : Nat} {point : Int}
    (pointLe : (10 : ℚ) ^ (point - 1) ≤ value (lower + 1)) :
    ∃ whole, ((interval (lower + 1)).descale (point - (17 : Nat))).nearestWhole? tie =
      some whole := by
  have stepPos : (0 : ℚ) < 10 ^ (point - (17 : Nat)) := by positivity
  have gridPos : 0 < ((interval (lower + 1)).descale (point - (17 : Nat))).scale :=
    Interval.scale_descale_pos (scale_interval_pos (lower + 1)) _
  have belowLe := Interval.div_le_center ((interval (lower + 1)).descale (point - (17 : Nat)))
  have ltAbove := Interval.center_lt_div_succ gridPos
  rw [Interval.center_descale, center_interval, le_div_iff₀ stepPos] at belowLe
  rw [Interval.center_descale, center_interval, div_lt_iff₀ stepPos] at ltAbove
  have fine : 10 ^ 16 * (10 : ℚ) ^ (point - (17 : Nat)) ≤ value (lower + 1) := by
    calc
      (10 : ℚ) ^ 16 * 10 ^ (point - (17 : Nat)) = 10 ^ (point - 1) := by
        rw [← zpow_natCast, ← zpow_add₀ (by norm_num)]
        congr 1
        omega
      _ ≤ value (lower + 1) := pointLe
  have either := contains_or_contains fine belowLe ltAbove
  rw [← Interval.contains_descale, ← Interval.contains_descale] at either
  apply Option.ne_none_iff_exists'.mp
  intro missing
  rcases Interval.nearestWhole?_eq_none missing with ⟨notBelow, notAbove⟩
  exact either.elim notBelow notAbove

/-- The shortest decimal of a positive magnitude rounds to it, and it has at most seventeen
digits. -/
theorem isNearest_shortest (tie : Tie) {code : Nat} (positive : 0 < code) :
    IsNearest code (shortest tie code).value ∧ 0 < (shortest tie code).digits ∧
      (shortest tie code).digits ≤ 10 ^ 17 := by
  rcases Nat.exists_eq_succ_of_ne_zero (Nat.ne_of_gt positive) with ⟨lower, rfl⟩
  have scalePos := scale_interval_pos (lower + 1)
  have middlePos : 0 < (interval (lower + 1)).middle := by
    have valuePos : 0 < value (lower + 1) :=
      (value_nonneg lower).trans_lt (value_strictMono (Nat.lt_succ_self lower))
    rw [← center_interval, Interval.center, div_pos_iff_of_pos_right (Nat.cast_pos.mpr scalePos)]
      at valuePos
    exact Nat.cast_pos.mp valuePos
  rcases Interval.decimalPoint_spec scalePos middlePos with ⟨pointLe, belowPoint⟩
  rw [center_interval] at pointLe
  have shortestEq : shortest tie (lower + 1) = firstGrid tie (interval (lower + 1))
      (interval (lower + 1)).decimalPoint 17 1 := if_neg (Nat.succ_ne_zero lower)
  rcases @firstGrid_spec tie _ _ belowPoint 17 1 17 (by decide) rfl
      (exists_nearestWhole?_seventeen tie pointLe) with
    ⟨contains, digitsLe⟩
  rw [← shortestEq] at contains digitsLe
  have near := isNearest_of_contains contains
  refine ⟨near, ?_, digitsLe⟩
  apply Nat.pos_of_ne_zero
  intro noDigit
  have above := near.midpoint_le lower rfl
  rw [Decimal.value, noDigit, Nat.cast_zero, zero_mul] at above
  exact absurd above (midpoint_pos lower).not_ge

end Binary64

end TikzGlyph
