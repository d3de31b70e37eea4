import Mathlib.Algebra.Order.Field.Basic
import Mathlib.Algebra.Order.Ring.Rat
import Mathlib.Order.Monotone.Basic
import Mathlib.Tactic.FieldSimp
import Mathlib.Tactic.Linarith
import Mathlib.Tactic.Positivity
import Mathlib.Tactic.Ring
import TikzGlyph.Binary64.Basic

/-!
# Magnitudes and the midpoints between them

Codes count the magnitudes upwards, so the magnitude of the next code is larger by one unit in the
last place. Between two neighbours lies their midpoint. Midpoints grow fast enough that a factor of
`1 + 2 ^ -53`, the most that one rounding changes a number by, never reaches from one midpoint to
the next: a number that has been rounded `n` times is at most `n` codes away from where it belongs.
-/

namespace TikzGlyph

namespace Binary64

/-! ## Codes and their parts -/

theorem fractionCount_eq : fractionCount = 2 ^ 52 := rfl

theorem lastPlace_add_significand (code : Nat) :
    lastPlace code * fractionCount + significand code = code := by
  have division := Nat.div_add_mod code fractionCount
  unfold lastPlace significand exponentField
  split
  · rename_i noField
    rw [noField, Nat.zero_sub, Nat.zero_mul, Nat.zero_add]
  · rename_i hasField
    rcases Nat.exists_eq_succ_of_ne_zero hasField with ⟨field, fieldEq⟩
    rw [fieldEq, Nat.succ_eq_add_one] at division ⊢
    rw [Nat.add_sub_cancel]
    linarith

theorem significand_lt (code : Nat) : significand code < 2 * fractionCount := by
  have fractionLt : code % fractionCount < fractionCount := Nat.mod_lt _ (by decide)
  unfold significand exponentField
  split
  · rename_i noField
    have small := Nat.lt_of_div_eq_zero (by decide) noField
    omega
  · omega

theorem le_significand {bound code : Nat} (few : bound ≤ fractionCount) (large : bound ≤ code) :
    bound ≤ significand code := by
  unfold significand
  split
  · exact large
  · exact few.trans (Nat.le_add_right _ _)

theorem le_significand_or_lastPlace_eq_zero (code : Nat) :
    fractionCount ≤ significand code ∨ lastPlace code = 0 := by
  unfold significand lastPlace
  split
  · right
    omega
  · left
    omega

/-- Normal significands with their last place, and all significands in the lowest last place, are
the parts of a code. -/
theorem units_of_lt {place digits : Nat} (bounded : digits < 2 * fractionCount)
    (normal : fractionCount ≤ digits ∨ place = 0) :
    units (place * fractionCount + digits) = digits * 2 ^ place := by
  have positive : 0 < fractionCount := by decide
  rcases Nat.lt_or_ge digits fractionCount with small | large
  · have placeEq : place = 0 := normal.resolve_left (Nat.not_le_of_lt small)
    subst placeEq
    have fieldEq : exponentField digits = 0 := Nat.div_eq_of_lt small
    simp [units, significand, lastPlace, fieldEq]
  · rcases Nat.exists_eq_add_of_le large with ⟨fraction, rfl⟩
    have small : fraction < fractionCount := by omega
    have codeEq : place * fractionCount + (fractionCount + fraction) =
        fraction + fractionCount * (place + 1) := by ring
    have fieldEq : exponentField (place * fractionCount + (fractionCount + fraction)) =
        place + 1 := by
      rw [exponentField, codeEq, Nat.add_mul_div_left _ _ positive, Nat.div_eq_of_lt small,
        Nat.zero_add]
    have fractionEq : (place * fractionCount + (fractionCount + fraction)) % fractionCount =
        fraction := by
      rw [codeEq, Nat.add_mul_mod_self_left, Nat.mod_eq_of_lt small]
    simp [units, significand, lastPlace, fieldEq, fractionEq]

/-- A significand that has grown to twice the fractions is the first one of the next place. -/
theorem units_of_parts {place digits : Nat} (bounded : digits ≤ 2 * fractionCount)
    (normal : fractionCount ≤ digits ∨ place = 0) :
    units (place * fractionCount + digits) = digits * 2 ^ place := by
  rcases Nat.lt_or_eq_of_le bounded with small | rfl
  · exact units_of_lt small normal
  · have carried : place * fractionCount + 2 * fractionCount =
        (place + 1) * fractionCount + fractionCount := by ring
    have positive : 0 < fractionCount := by decide
    rw [carried, units_of_lt (by omega) (Or.inl (Nat.le_refl _)), Nat.pow_succ]
    ring

theorem units_eq (code : Nat) : units code = significand code * 2 ^ lastPlace code := rfl

theorem units_succ (code : Nat) : units (code + 1) = units code + 2 ^ lastPlace code := by
  have next : lastPlace code * fractionCount + (significand code + 1) = code + 1 := by
    rw [← Nat.add_assoc, lastPlace_add_significand]
  have parts : units (lastPlace code * fractionCount + (significand code + 1)) =
      (significand code + 1) * 2 ^ lastPlace code :=
    units_of_parts (significand_lt code)
      ((le_significand_or_lastPlace_eq_zero code).imp_left Nat.le_succ_of_le)
  rw [next] at parts
  rw [parts, units_eq]
  ring

theorem units_strictMono : StrictMono units := by
  apply strictMono_nat_of_lt_succ
  intro code
  rw [units_succ]
  have positive := Nat.two_pow_pos (lastPlace code)
  omega

theorem lastPlace_mono : Monotone lastPlace := by
  intro code later le
  exact Nat.sub_le_sub_right (Nat.div_le_div_right le) 1

/-- The last place moves up at the powers of two. -/
theorem lastPlace_succ (code : Nat) :
    lastPlace (code + 1) =
      if (code + 1) % fractionCount = 0 ∧ 1 < exponentField (code + 1) then lastPlace code + 1
      else lastPlace code := by
  have next : exponentField (code + 1) =
      exponentField code + if fractionCount ∣ code + 1 then 1 else 0 := Nat.succ_div
  simp only [lastPlace, next, Nat.dvd_iff_mod_eq_zero]
  split
  · split <;> omega
  · rw [if_neg (by simp [*])]
    rfl

theorem significand_mod_two (code : Nat) : significand code % 2 = code % 2 := by
  have parts := lastPlace_add_significand code
  have fractionsEven : fractionCount % 2 = 0 := by decide
  have placeEven : lastPlace code * fractionCount % 2 = 0 := by
    simp [Nat.mul_mod, fractionsEven]
  omega

/-- A few binary digits at any place make a magnitude. -/
theorem exists_units_eq {digits : Nat} (few : digits ≤ 2 * fractionCount) (place : Nat) :
    ∃ code, units code = digits * 2 ^ place := by
  induction place generalizing digits with
  | zero => exact ⟨_, units_of_parts few (Or.inr rfl)⟩
  | succ place ih =>
      rcases Nat.le_total fractionCount digits with normal | small
      · exact ⟨_, units_of_parts few (Or.inl normal)⟩
      · have twiceFew : 2 * digits ≤ 2 * fractionCount := by omega
        rcases ih twiceFew with ⟨code, codeEq⟩
        refine ⟨code, ?_⟩
        rw [codeEq, Nat.pow_succ]
        ring

theorem unitsOfOne_eq : unitsOfOne = 2 ^ 1074 := by decide +kernel

/-- The first code of a normal place stands for a power of two. -/
theorem units_leading (place : Nat) :
    units (place * fractionCount + fractionCount) = 2 ^ (52 + place) := by
  have positive : 0 < fractionCount := by decide
  rw [units_of_parts (by omega) (Or.inl (Nat.le_refl _)), Nat.pow_add, fractionCount_eq]

theorem units_one : units (1023 * fractionCount) = unitsOfOne := by
  have codeEq : 1023 * fractionCount = 1022 * fractionCount + fractionCount := by decide
  rw [codeEq, units_leading, unitsOfOne_eq]

theorem units_magnitudeCount : units magnitudeCount = 2 ^ 1024 * unitsOfOne := by
  have countEq : magnitudeCount = 2046 * fractionCount + fractionCount := by decide
  rw [countEq, units_leading, unitsOfOne_eq, ← Nat.pow_add]

/-! ## Values and midpoints -/

/-- The number that a code stands for. -/
def value (code : Nat) : ℚ := units code / unitsOfOne

/-- The number halfway between a magnitude and the next one. -/
def midpoint (code : Nat) : ℚ := (value code + value (code + 1)) / 2

theorem exists_unitsOfOne_eq : ∃ place, unitsOfOne = 2 ^ place := ⟨1074, unitsOfOne_eq⟩

theorem unitsOfOne_pos : (0 : ℚ) < unitsOfOne := by
  rw [unitsOfOne_eq, Nat.cast_pow, Nat.cast_ofNat]
  positivity

/-- One unit in the last place of a magnitude. -/
def gap (code : Nat) : ℚ := 2 ^ lastPlace code / unitsOfOne

theorem gap_pos (code : Nat) : 0 < gap code :=
  div_pos (by positivity) unitsOfOne_pos

theorem gap_mono : Monotone gap := by
  intro code later le
  have powers : (2 : ℚ) ^ lastPlace code ≤ 2 ^ lastPlace later :=
    pow_le_pow_right₀ (by norm_num) (lastPlace_mono le)
  exact div_le_div_of_nonneg_right powers unitsOfOne_pos.le

theorem value_eq (code : Nat) : value code = significand code * gap code := by
  simp only [value, units_eq, gap, Nat.cast_mul, Nat.cast_pow, Nat.cast_ofNat]
  ring

theorem value_succ (code : Nat) : value (code + 1) = value code + gap code := by
  simp only [value, units_succ, gap, Nat.cast_add, Nat.cast_pow, Nat.cast_ofNat]
  ring

/-- A magnitude has few digits in its last place. -/
theorem value_le_mul_gap (code : Nat) : value code ≤ (2 ^ 53 - 1) * gap code := by
  have few : (significand code : ℚ) + 1 ≤ 2 ^ 53 := by
    have bounded := significand_lt code
    rw [fractionCount_eq] at bounded
    exact_mod_cast bounded
  rw [value_eq]
  exact mul_le_mul_of_nonneg_right (by linarith) (gap_pos code).le

theorem value_strictMono : StrictMono value := by
  intro code later lt
  have unitsLt : (units code : ℚ) < units later := Nat.cast_lt.mpr (units_strictMono lt)
  exact div_lt_div_of_pos_right unitsLt unitsOfOne_pos

theorem value_zero : value 0 = 0 := by
  have noUnits : units 0 = 0 := by decide
  rw [value, noUnits, Nat.cast_zero, zero_div]

theorem value_nonneg (code : Nat) : 0 ≤ value code :=
  div_nonneg (Nat.cast_nonneg _) unitsOfOne_pos.le

theorem midpoint_eq (code : Nat) : midpoint code = value code + gap code / 2 := by
  rw [midpoint, value_succ]
  ring

theorem midpoint_eq_sub (code : Nat) : midpoint code = value (code + 1) - gap code / 2 := by
  rw [midpoint, value_succ]
  ring

theorem value_lt_midpoint (code : Nat) : value code < midpoint code := by
  have positive := gap_pos code
  rw [midpoint_eq]
  linarith

theorem midpoint_lt_value_succ (code : Nat) : midpoint code < value (code + 1) := by
  have positive := gap_pos code
  rw [midpoint_eq_sub]
  linarith

theorem midpoint_strictMono : StrictMono midpoint := by
  apply strictMono_nat_of_lt_succ
  intro code
  exact (midpoint_lt_value_succ code).trans (value_lt_midpoint (code + 1))

theorem midpoint_pos (code : Nat) : 0 < midpoint code :=
  (value_nonneg code).trans_lt (value_lt_midpoint code)

/-! ## Roundings that accumulate -/

/-- The largest factor by which rounding to a normal number changes a number. -/
def drift : ℚ := 1 + 1 / 2 ^ 53

theorem one_lt_drift : 1 < drift := by norm_num [drift]

theorem drift_pos : 0 < drift := one_pos.trans one_lt_drift

/-- One drift does not reach from a midpoint to the next one. -/
theorem drift_mul_midpoint_lt (code : Nat) : drift * midpoint code < midpoint (code + 1) := by
  have positive := gap_pos code
  have wider := gap_mono (Nat.le_succ code)
  have few := value_le_mul_gap code
  rw [midpoint_eq, midpoint_eq, value_succ, drift]
  linarith

theorem drift_pow_mul_midpoint_le (count code : Nat) :
    drift ^ count * midpoint code ≤ midpoint (code + count) := by
  induction count with
  | zero => simp
  | succ count ih =>
      calc
        drift ^ (count + 1) * midpoint code = drift * (drift ^ count * midpoint code) := by ring
        _ ≤ drift * midpoint (code + count) := mul_le_mul_of_nonneg_left ih drift_pos.le
        _ ≤ midpoint (code + (count + 1)) := (drift_mul_midpoint_lt _).le

theorem drift_pow_mul_midpoint_lt {count : Nat} (positive : 0 < count) (code : Nat) :
    drift ^ count * midpoint code < midpoint (code + count) := by
  rcases Nat.exists_eq_add_of_lt positive with ⟨fewer, rfl⟩
  calc
    drift ^ (0 + fewer + 1) * midpoint code = drift * (drift ^ fewer * midpoint code) := by ring
    _ ≤ drift * midpoint (code + fewer) :=
      mul_le_mul_of_nonneg_left (drift_pow_mul_midpoint_le fewer code) drift_pos.le
    _ < midpoint (code + (fewer + 1)) := drift_mul_midpoint_lt _
    _ = midpoint (code + (0 + fewer + 1)) := by rw [Nat.zero_add]

end Binary64

end TikzGlyph
