import TikzGlyph.Proofs.Binary64.Nearest

/-!
# Products and quotients are rounded once

Whole numbers, products and quotients become the number of the nearest code. A code past all finite
ones stands for an infinite number, and rounding reaches one exactly from `overflow` on, which lies
half a gap beyond the largest finite number: the code of this number is odd, so the midpoint after
it is rounded up.
-/

namespace TikzGlyph

namespace Binary64

/-- The number with a code, or the infinite one past all finite codes. -/
def ofCode (negative : Bool) (code : Nat) : Binary64 :=
  if bounded : code < magnitudeCount then .finite negative ⟨code, bounded⟩
  else .infinite negative

/-- A result is a number under a sign, rounded to the nearest code. -/
def Rounds (negative : Bool) (number : ℚ) (result : Binary64) : Prop :=
  ∃ code, IsNearest code number ∧ result = ofCode negative code

/-- The least number that is rounded to an infinite one. -/
def overflow : ℚ := midpoint (magnitudeCount - 1)

theorem IsNearest.lt_magnitudeCount_iff {code : Nat} {number : ℚ} (near : IsNearest code number) :
    code < magnitudeCount ↔ number < overflow := by
  have positive : 0 < magnitudeCount := by decide
  rw [overflow]
  constructor
  · intro bounded
    have ordered := midpoint_strictMono.monotone (Nat.le_sub_one_of_lt bounded)
    apply lt_of_le_of_ne (near.le_midpoint.trans ordered)
    intro tie
    have same : midpoint code = midpoint (magnitudeCount - 1) := by
      apply le_antisymm ordered
      rw [← tie]
      exact near.le_midpoint
    have largest := midpoint_strictMono.injective same
    have even := near.even_of_eq (tie.trans same.symm)
    rw [largest] at even
    exact absurd even (by decide)
  · intro below
    have leLargest := near.le_of_lt below
    omega

theorem ofCode_of_lt {negative : Bool} {code : Nat} (bounded : code < magnitudeCount) :
    ofCode negative code = .finite negative ⟨code, bounded⟩ := dif_pos bounded

theorem ofCode_of_le {negative : Bool} {code : Nat} (past : magnitudeCount ≤ code) :
    ofCode negative code = .infinite negative := dif_neg (Nat.not_lt_of_le past)

theorem isFinite_of_finite? {unchecked number : Binary64}
    (finite : unchecked.finite? = some number) : number.IsFinite := by
  rw [finite?] at finite
  split at finite
  · rename_i finiteValue
    cases finite
    exact finiteValue
  · cases finite

theorem isFinite_negate {number : Binary64} : number.negate.IsFinite ↔ number.IsFinite := by
  cases number <;> exact Iff.rfl

namespace Rounds

variable {negative : Bool} {number : ℚ} {result : Binary64}

theorem exists_finite (rounds : Rounds negative number result) (below : number < overflow) :
    ∃ magnitude, IsNearest magnitude.val number ∧ result = .finite negative magnitude := by
  rcases rounds with ⟨code, near, rfl⟩
  have bounded := near.lt_magnitudeCount_iff.mpr below
  exact ⟨⟨code, bounded⟩, near, ofCode_of_lt bounded⟩

theorem isFinite_iff (rounds : Rounds negative number result) :
    result.IsFinite ↔ number < overflow := by
  rcases rounds with ⟨code, near, rfl⟩
  rw [← near.lt_magnitudeCount_iff]
  rcases Nat.lt_or_ge code magnitudeCount with bounded | past
  · rw [ofCode_of_lt bounded]
    exact iff_of_true trivial bounded
  · rw [ofCode_of_le past]
    exact iff_of_false id (Nat.not_lt_of_le past)

end Rounds

theorem rounds_ofUnits (negative : Bool) (numerator : Nat) {denominator : Nat}
    (positive : 0 < denominator) :
    Rounds negative (numerator / denominator / unitsOfOne)
      (ofUnits negative numerator denominator) :=
  ⟨_, isNearest_nearestCode positive numerator, rfl⟩

theorem rounds_ofQuotient (negative : Bool) (numerator : Nat) {denominator : Nat}
    (positive : 0 < denominator) :
    Rounds negative (numerator / denominator) (ofQuotient negative numerator denominator) := by
  have rounds := rounds_ofUnits negative (numerator * unitsOfOne) positive
  have numberEq : ((numerator * unitsOfOne : Nat) : ℚ) / denominator / unitsOfOne =
      numerator / denominator := by
    have nonzero := unitsOfOne_pos.ne'
    rw [Nat.cast_mul]
    field_simp
  rwa [numberEq] at rounds

theorem rounds_ofNat (negative : Bool) (number : Nat) :
    Rounds negative number (ofNat negative number) := by
  have rounds := rounds_ofQuotient negative number Nat.one_pos
  rwa [Nat.cast_one, div_one] at rounds

theorem rounds_mul (negative otherNegative : Bool) (left right : Fin magnitudeCount) :
    Rounds (negative != otherNegative) (value left * value right)
      ((Binary64.finite negative left).mul (.finite otherNegative right)) := by
  have positive : 0 < unitsOfOne := Nat.cast_pos.mp unitsOfOne_pos
  have rounds := rounds_ofUnits (negative != otherNegative) (units left * units right) positive
  have numberEq : ((units left * units right : Nat) : ℚ) / unitsOfOne / unitsOfOne =
      value left * value right := by
    rw [Nat.cast_mul, value, value]
    ring
  rwa [numberEq] at rounds

theorem rounds_div (negative otherNegative : Bool) (left : Fin magnitudeCount)
    {right : Fin magnitudeCount} (nonzero : right.val ≠ 0) :
    Rounds (negative != otherNegative) (value left / value right)
      ((Binary64.finite negative left).div (.finite otherNegative right)) := by
  have rightPos : 0 < units right := by
    have later := units_strictMono (Nat.pos_of_ne_zero nonzero)
    omega
  have rounds := rounds_ofUnits (negative != otherNegative) (units left * unitsOfOne) rightPos
  have numberEq : ((units left * unitsOfOne : Nat) : ℚ) / units right / unitsOfOne =
      value left / value right := by
    have onePos := unitsOfOne_pos
    rw [Nat.cast_mul, value, value]
    field_simp
  rw [numberEq] at rounds
  rwa [div, if_neg nonzero]

end Binary64

end TikzGlyph
