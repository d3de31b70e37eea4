import TikzGlyph.Proofs.Binary64.Overflow
import TikzGlyph.Proofs.Json.Literal
import TikzGlyph.Proofs.Json.Scaling

/-!
# Numbers out of range

A number token is finite or has no value. It has none when scaling its significand overflows, and
the digits that a significand drops, the rounding of the significand and that of the power of ten
change the number so little that a literal just past the finite numbers is out of range for sure.
The words for infinity and for the value that is not a number are no tokens at all.
-/

namespace TikzGlyph

namespace Json

open Binary64

/-! ## Dropped digits -/

namespace Significand

/-- The number that a significand stands for. -/
def size (significand : Significand) : ℚ := significand.digits * 10 ^ significand.exponent

/-- A significand holds the digits that have been read, `places` of them after the point: all of
them, or so many leading ones that the others weigh little. -/
inductive Holds (significand : Significand) (digits places : Nat) : Prop
  | all (digitsEq : significand.digits = digits) (exponentEq : significand.exponent = -places)
      (notFull : significand.full = false)
  | leading (kept : Nat) (exponent : Int) (many : 2 ^ 60 ≤ kept)
      (leSize : (kept : ℚ) * 10 ^ exponent ≤ significand.size)
      (below : ((digits : ℚ) + 1) / 10 ^ places ≤ (kept + 1) * 10 ^ exponent)

variable {significand : Significand} {digit : Char} {digits places : Nat}

theorem extend_add_one_le (isDigit : digit.isDigit = true) (digits : Nat) :
    (extend digits digit : ℚ) + 1 ≤ 10 * (digits + 1) := by
  have bounds := Char.isDigit_iff_toNat.mp isDigit
  have zeroEq : '0'.toNat = 48 := rfl
  have nineEq : '9'.toNat = 57 := rfl
  have whole : extend digits digit + 1 ≤ 10 * (digits + 1) := by
    simp only [extend]
    omega
  exact_mod_cast whole

/-- A digit that does not fit comes after many. -/
theorem many_of_grown? (isDigit : digit.isDigit = true) (notFull : significand.full = false)
    (dropped : significand.grown? digit = none) : 2 ^ 60 ≤ significand.digits := by
  have bounds := Char.isDigit_iff_toNat.mp isDigit
  have zeroEq : '0'.toNat = 48 := rfl
  have nineEq : '9'.toNat = 57 := rfl
  have sizeEq : UInt64.size = 2 ^ 64 := rfl
  rw [grown?] at dropped
  split at dropped
  · rename_i overflows
    simp only [notFull, Bool.false_eq_true, false_or, sizeEq] at overflows
    omega
  · cases dropped

theorem grown?_eq_some {grown : Nat} (fits : significand.grown? digit = some grown) :
    grown = extend significand.digits digit ∧ grown < UInt64.size := by
  rw [grown?] at fits
  split at fits
  · cases fits
  · rename_i bounded
    cases fits
    exact ⟨rfl, by simp only [not_or, not_le] at bounded; exact bounded.2⟩

theorem le_extend (digits : Nat) (digit : Char) : 10 * (digits : ℚ) ≤ extend digits digit := by
  have whole : 10 * digits ≤ extend digits digit := Nat.le_add_right _ _
  exact_mod_cast whole

theorem le_size_appendWhole (significand : Significand) (digit : Char) :
    significand.size * 10 ≤ (significand.appendWhole digit).size := by
  have powerPos : (0 : ℚ) < 10 ^ significand.exponent := by positivity
  rw [appendWhole]
  cases fits : significand.grown? digit with
  | some grown =>
      rcases grown?_eq_some fits with ⟨rfl, _⟩
      have extended := mul_le_mul_of_nonneg_right (le_extend significand.digits digit) powerPos.le
      simp only [size]
      linarith only [extended]
  | none =>
      simp only [size]
      rw [zpow_add_one₀ (by norm_num), mul_assoc]

theorem le_size_appendFraction (significand : Significand) (digit : Char) :
    significand.size ≤ (significand.appendFraction digit).size := by
  have powerPos : (0 : ℚ) < 10 ^ (significand.exponent - 1) := by positivity
  rw [appendFraction]
  cases fits : significand.grown? digit with
  | some grown =>
      rcases grown?_eq_some fits with ⟨rfl, _⟩
      have extended := mul_le_mul_of_nonneg_right (le_extend significand.digits digit) powerPos.le
      have powerEq : (10 : ℚ) ^ significand.exponent = 10 * 10 ^ (significand.exponent - 1) := by
        rw [← zpow_one_add₀ (by norm_num), add_sub_cancel]
      simp only [size]
      rw [powerEq]
      linarith only [extended]
  | none => exact le_refl _

theorem Holds.appendWhole (holds : significand.Holds digits 0) (isDigit : digit.isDigit = true) :
    (significand.appendWhole digit).Holds (extend digits digit) 0 := by
  have nextLe := extend_add_one_le isDigit digits
  have grows := le_size_appendWhole significand digit
  cases holds with
  | all digitsEq exponentEq notFull =>
      subst digitsEq
      cases fits : significand.grown? digit with
      | some grown =>
          rcases grown?_eq_some fits with ⟨rfl, _⟩
          rw [Significand.appendWhole, fits]
          exact .all rfl exponentEq notFull
      | none =>
          refine .leading significand.digits 1 (many_of_grown? isDigit notFull fits) ?_ ?_
          · refine le_trans (le_of_eq ?_) grows
            simp [size, exponentEq]
          · rw [pow_zero, div_one, zpow_one, mul_comm]
            exact nextLe
  | leading kept exponent many leSize below =>
      refine .leading kept (exponent + 1) many ?_ ?_
      · rw [zpow_add_one₀ (by norm_num), ← mul_assoc]
        exact (mul_le_mul_of_nonneg_right leSize (by norm_num)).trans grows
      · rw [pow_zero, div_one] at below ⊢
        rw [zpow_add_one₀ (by norm_num), ← mul_assoc]
        linarith only [nextLe, below]

theorem Holds.appendFraction (holds : significand.Holds digits places)
    (isDigit : digit.isDigit = true) :
    (significand.appendFraction digit).Holds (extend digits digit) (places + 1) := by
  have grows := le_size_appendFraction significand digit
  have nextLe : ((extend digits digit : ℚ) + 1) / 10 ^ (places + 1) ≤
      (digits + 1) / 10 ^ places := by
    have bound := extend_add_one_le isDigit digits
    rw [pow_succ', ← div_div]
    exact div_le_div_of_nonneg_right (by linarith only [bound]) (by positivity)
  cases holds with
  | all digitsEq exponentEq notFull =>
      subst digitsEq
      cases fits : significand.grown? digit with
      | some grown =>
          rcases grown?_eq_some fits with ⟨rfl, _⟩
          rw [Significand.appendFraction, fits]
          refine .all rfl ?_ notFull
          simp only [exponentEq]
          omega
      | none =>
          refine .leading significand.digits significand.exponent
            (many_of_grown? isDigit notFull fits) grows ?_
          refine nextLe.trans (le_of_eq ?_)
          rw [exponentEq, zpow_neg, zpow_natCast, div_eq_mul_inv]
  | leading kept exponent many leSize below =>
      exact .leading kept exponent many (leSize.trans grows) (nextLe.trans below)

/-- Dropped digits weigh little against the digits that are held. -/
theorem Holds.le_size (holds : significand.Holds digits places) :
    (digits : ℚ) / 10 ^ places ≤ (1 + 1 / 2 ^ 60) * significand.size := by
  cases holds with
  | all digitsEq exponentEq notFull =>
      have sizeEq : significand.size = digits / 10 ^ places := by
        rw [size, digitsEq, exponentEq, zpow_neg, zpow_natCast, div_eq_mul_inv]
      rw [sizeEq]
      exact le_mul_of_one_le_left (by positivity) (by norm_num)
  | leading kept exponent many le_size below =>
      have manyCast : (2 : ℚ) ^ 60 ≤ kept := by exact_mod_cast many
      have powerPos : (0 : ℚ) < 10 ^ exponent := by positivity
      calc (digits : ℚ) / 10 ^ places
          ≤ (digits + 1) / 10 ^ places := by gcongr; linarith
        _ ≤ (kept + 1) * 10 ^ exponent := below
        _ ≤ (1 + 1 / 2 ^ 60) * (kept * 10 ^ exponent) := by
            rw [← mul_assoc]
            refine mul_le_mul_of_nonneg_right ?_ powerPos.le
            linarith only [manyCast]
        _ ≤ (1 + 1 / 2 ^ 60) * significand.size :=
            mul_le_mul_of_nonneg_left le_size (by norm_num)

theorem Holds.foldl_appendWhole (holds : significand.Holds digits 0) {text : List Char}
    (isDigit : ∀ digit ∈ text, digit.isDigit = true) :
    (text.foldl Significand.appendWhole significand).Holds (text.foldl extend digits) 0 := by
  induction text generalizing significand digits with
  | nil => exact holds
  | cons digit rest ih =>
      rw [List.forall_mem_cons] at isDigit
      exact ih (holds.appendWhole isDigit.1) isDigit.2

theorem Holds.foldl_appendFraction (holds : significand.Holds digits places) {text : List Char}
    (isDigit : ∀ digit ∈ text, digit.isDigit = true) :
    (text.foldl Significand.appendFraction significand).Holds (text.foldl extend digits)
      (places + text.length) := by
  induction text generalizing significand digits places with
  | nil => exact holds
  | cons digit rest ih =>
      rw [List.forall_mem_cons] at isDigit
      have later := ih (holds.appendFraction isDigit.1) isDigit.2
      rwa [Nat.add_assoc, Nat.add_comm 1] at later

theorem Holds.reopen (holds : significand.Holds digits places) :
    ({ significand with full := false } : Significand).Holds digits places := by
  cases holds with
  | all digitsEq exponentEq notFull => exact .all digitsEq exponentEq rfl
  | leading kept exponent many leSize below => exact .leading kept exponent many leSize below

theorem holds_ofDigits (literal : Literal) :
    (ofDigits literal.whole literal.fraction).Holds literal.digits literal.fraction.length := by
  have start : zero.Holds 0 0 := .all rfl rfl rfl
  have wholeHeld := start.foldl_appendWhole fun digit digitMem =>
    literal.isDigit digit (List.mem_append_left _ digitMem)
  have held := wholeHeld.reopen.foldl_appendFraction fun digit digitMem =>
    literal.isDigit digit (List.mem_append_right _ digitMem)
  rwa [Nat.zero_add, ← List.foldl_append] at held

theorem digits_appendWhole_lt (bounded : significand.digits < UInt64.size) (digit : Char) :
    (significand.appendWhole digit).digits < UInt64.size := by
  rw [appendWhole]
  cases fits : significand.grown? digit with
  | some grown => exact (grown?_eq_some fits).2
  | none => exact bounded

theorem digits_appendFraction_lt (bounded : significand.digits < UInt64.size) (digit : Char) :
    (significand.appendFraction digit).digits < UInt64.size := by
  rw [appendFraction]
  cases fits : significand.grown? digit with
  | some grown => exact (grown?_eq_some fits).2
  | none => exact bounded

theorem digits_foldl_lt {append : Significand → Char → Significand}
    (keeps : ∀ significand : Significand, significand.digits < UInt64.size →
      ∀ digit, (append significand digit).digits < UInt64.size)
    (bounded : significand.digits < UInt64.size) (text : List Char) :
    (text.foldl append significand).digits < UInt64.size := by
  induction text generalizing significand with
  | nil => exact bounded
  | cons digit rest ih => exact ih (keeps significand bounded digit)

theorem digits_ofDigits_lt (whole fraction : List Char) :
    (ofDigits whole fraction).digits < UInt64.size := by
  have zeroLt : zero.digits < UInt64.size := by decide
  have wholeLt : ({ whole.foldl appendWhole zero with full := false } : Significand).digits <
      UInt64.size := digits_foldl_lt (fun _ => digits_appendWhole_lt) zeroLt whole
  exact digits_foldl_lt (fun _ => digits_appendFraction_lt) wholeLt fraction

end Significand

/-! ## Literals out of range -/

theorem number?_eq_none_of_scale? {negative : Bool} {significand : Significand} {exponent : Int}
    {number : Binary64} (small : exponent.natAbs ≤ largestExponent)
    (scaled : scale? (.ofNat false significand.digits) (significand.exponent + exponent) =
      some number) (notFinite : ¬number.IsFinite) :
    number? negative significand exponent = none := by
  simp only [number?, if_neg (Nat.not_lt_of_le small), scaled, Option.bind_some, finite?]
  apply if_neg
  cases negative with
  | false => exact notFinite
  | true => exact fun finite => notFinite (isFinite_negate.mp finite)

theorem scale?_eq_none {number : Binary64} (nonzero : number ≠ .zero false) {exponent : Int}
    (large : (largestPower : Int) < exponent) : scale? number exponent = none := by
  rw [scale?, if_neg (by omega), if_neg nonzero, if_pos (by omega)]

/-- A product of significand and power of ten that is this large overflows in spite of drifts. -/
theorem overflow_le_of_le {read number : ℚ} {count : Nat} (few : count ≤ 2) (positive : 0 < read)
    (within : WithinDrifts count read number)
    (large : 2 ^ 1024 + 2 ^ 972 ≤ (1 + 1 / 2 ^ 60) * number) : overflow ≤ read := by
  have numberLe := (within.mono positive few).ge
  have driftEq : drift = 1 + 1 / 2 ^ 53 := rfl
  have firstEq : (2 : ℚ) ^ 1024 = 2 ^ 970 * 2 ^ 54 := by rw [← pow_add]
  have secondEq : (2 : ℚ) ^ 972 = 2 ^ 970 * 2 ^ 2 := by rw [← pow_add]
  have unitPos : (0 : ℚ) < 2 ^ 970 := by positivity
  rw [overflow_eq]
  rw [firstEq, secondEq] at large
  rw [firstEq]
  rw [driftEq] at numberLe
  generalize (2 : ℚ) ^ 970 = unit at *
  norm_num at large numberLe
  linarith only [large, numberLe, unitPos]

section Large

variable {digits : Nat} {exponent : Int}

theorem digits_pos_of_large
    (large : 2 ^ 1024 + 2 ^ 972 ≤ (1 + 1 / 2 ^ 60) * ((digits : ℚ) * 10 ^ exponent)) :
    0 < digits := by
  apply Nat.pos_of_ne_zero
  rintro rfl
  rw [Nat.cast_zero, zero_mul, mul_zero] at large
  exact absurd large (not_le_of_gt (by positivity))

/-- A significand alone is not so large. -/
theorem exponent_nonneg_of_large (bounded : digits < UInt64.size)
    (large : 2 ^ 1024 + 2 ^ 972 ≤ (1 + 1 / 2 ^ 60) * ((digits : ℚ) * 10 ^ exponent)) :
    0 ≤ exponent := by
  by_contra negative
  have powerLe : (10 : ℚ) ^ exponent ≤ 1 := zpow_le_one_of_nonpos₀ (by norm_num) (by omega)
  have digitsLt : (digits : ℚ) < 2 ^ 64 := by exact_mod_cast bounded
  have numberLt := (mul_le_of_le_one_right (Nat.cast_nonneg _) powerLe).trans_lt digitsLt
  have powers : (2 : ℚ) ^ 65 ≤ 2 ^ 1024 := pow_le_pow_right₀ (by norm_num) (by decide)
  have secondPos : (0 : ℚ) < 2 ^ 972 := by positivity
  generalize (2 : ℚ) ^ 1024 = first at large powers
  generalize (2 : ℚ) ^ 972 = second at large secondPos
  linarith only [large, numberLt, powers, secondPos]

theorem not_isFinite_of_scale? (bounded : digits < UInt64.size)
    (large : 2 ^ 1024 + 2 ^ 972 ≤ (1 + 1 / 2 ^ 60) * ((digits : ℚ) * 10 ^ exponent))
    {number : Binary64} (scaled : scale? (.ofNat false digits) exponent = some number) :
    ¬number.IsFinite := by
  have digitsPos := digits_pos_of_large large
  have nonneg := exponent_nonneg_of_large bounded large
  rcases exists_significand digitsPos bounded with ⟨magnitude, magnitudeEq, within⟩
  have magnitudePos := within.symm.right_pos (Nat.cast_pos.mpr digitsPos)
  rw [magnitudeEq] at scaled
  by_cases small : exponent.natAbs ≤ largestPower
  · rcases exists_scale? within magnitudePos small with
      ⟨result, read, resultScaled, rounds, readPos, readWithin⟩
    cases scaled.symm.trans resultScaled
    rw [rounds.isFinite_iff, not_lt]
    refine overflow_le_of_le ?_ readPos readWithin large
    split <;> split <;> decide
  · have nonzero : Binary64.finite false magnitude ≠ .zero false := by
      rintro ⟨⟩
      exact magnitudePos.ne' value_zero
    rw [scale?_eq_none nonzero (by omega)] at scaled
    cases scaled

end Large

theorem number?_eq_none_of_large {significand : Significand} {exponent : Int}
    (bounded : significand.digits < UInt64.size)
    (large : 2 ^ 1024 + 2 ^ 972 ≤ (1 + 1 / 2 ^ 60) *
      ((significand.digits : ℚ) * 10 ^ (significand.exponent + exponent)))
    (written : -(largestExponent : Int) ≤ exponent) (negative : Bool) :
    number? negative significand exponent = none := by
  by_cases small : exponent.natAbs ≤ largestExponent
  · cases scaled : scale? (.ofNat false significand.digits) (significand.exponent + exponent) with
    | none =>
        rw [number?, if_neg (Nat.not_lt_of_le small), scaled]
        rfl
    | some number =>
        exact number?_eq_none_of_scale? small scaled (not_isFinite_of_scale? bounded large scaled)
  · have digitsPos := digits_pos_of_large large
    have refused : ¬(exponent < 0 ∨ significand.digits = 0) := by omega
    rw [number?, if_pos (Nat.lt_of_not_le small), if_neg refused]
    rfl

/-- A literal just past the finite numbers is out of range, unless its power of ten is too small to
be written. -/
theorem Literal.value?_eq_none {literal : Literal}
    (large : 2 ^ 1024 + 2 ^ 972 ≤ (literal.digits : ℚ) * 10 ^ literal.scale)
    (written : -(largestExponent : Int) ≤ literal.exponent) : literal.value? = none := by
  have held := (Significand.holds_ofDigits literal).le_size
  have powerPos : (0 : ℚ) < 10 ^ literal.exponent := by positivity
  have numberEq : (Significand.ofDigits literal.whole literal.fraction).size *
      10 ^ literal.exponent =
        (Significand.ofDigits literal.whole literal.fraction).digits *
          10 ^ ((Significand.ofDigits literal.whole literal.fraction).exponent +
            literal.exponent) := by
    rw [Significand.size, zpow_add₀ (by norm_num), mul_assoc]
  apply number?_eq_none_of_large (Significand.digits_ofDigits_lt _ _) _ written
  rw [← numberEq, ← mul_assoc]
  refine large.trans (le_trans (le_of_eq ?_) (mul_le_mul_of_nonneg_right held powerPos.le))
  rw [Literal.scale, zpow_sub₀ (by norm_num), zpow_natCast, mul_div_assoc', div_mul_eq_mul_div]

/-! ## Number tokens are finite -/

theorem isFinite_of_number? {negative : Bool} {significand : Significand} {exponent : Int}
    {number : Binary64} (read : number? negative significand exponent = some number) :
    number.IsFinite := by
  rcases Option.bind_eq_some_iff.mp read with ⟨unsigned, _, finite⟩
  exact isFinite_of_finite? finite

/-- The number of a token, if there is one, is finite. -/
def Token.IsFinite : Token → Prop
  | .number (some value) => value.IsFinite
  | _ => True

theorem isFinite_number? (negative : Bool) (significand : Significand) (exponent : Int) :
    (Token.number (number? negative significand exponent)).IsFinite := by
  cases read : number? negative significand exponent with
  | none => trivial
  | some number => exact isFinite_of_number? read

theorem isFinite_stringFrom (reading : StringReading) (text : List Char) :
    (stringFrom reading text).token.IsFinite := by
  fun_induction stringFrom reading text <;> trivial

theorem isFinite_wordFrom (missing text : List Char) : (wordFrom missing text).token.IsFinite := by
  fun_induction wordFrom missing text <;> trivial

theorem isFinite_afterDigits (negative : Bool) (significand : Significand) (text : List Char) :
    (afterDigits negative significand text).token.IsFinite := by
  unfold afterDigits
  split
  · exact isFinite_number? _ _ _
  · split
    · unfold exponentFrom
      simp only
      split
      · split <;> trivial
      · exact isFinite_number? _ _ _
    · exact isFinite_number? _ _ _

theorem isFinite_numberFrom (negative : Bool) (text : List Char) :
    (numberFrom negative text).token.IsFinite := by
  unfold numberFrom
  simp only
  split
  · split <;> trivial
  · split
    · trivial
    · unfold afterWhole
      split
      · simp only
        split
        · split <;> trivial
        · exact isFinite_afterDigits _ _ _
      · exact isFinite_afterDigits _ _ _

theorem isFinite_lexeme (character : Char) (rest : List Char) :
    (lexeme character rest).token.IsFinite := by
  unfold lexeme
  split
  case h_7 => exact isFinite_stringFrom _ _
  case h_8 => exact isFinite_wordFrom _ _
  case h_9 => exact isFinite_wordFrom _ _
  case h_10 => exact isFinite_wordFrom _ _
  case h_11 => exact isFinite_numberFrom _ _
  case h_12 =>
    split
    · exact isFinite_numberFrom _ _
    · trivial
  all_goals trivial

theorem isFinite_of_mem_tokens {text : List Char} :
    ∀ token ∈ tokens text, token.IsFinite := by
  fun_induction tokens text with
  | case1 => simp
  | case2 character rest space ih => exact ih
  | case3 character rest notSpace ih =>
      rw [List.forall_mem_cons]
      exact ⟨isFinite_lexeme character rest, ih⟩

/-! ## Words for values without digits -/

theorem eq_or_eq_of_toLower {character lower upper : Char}
    (cased : upper.val = lower.val - ('a'.val - 'A'.val)) (same : character.toLower = lower) :
    character = lower ∨ character = upper := by
  unfold Char.toLower at same
  split at same
  · right
    have valEq : character.val + ('a'.val - 'A'.val) = lower.val := congrArg Char.val same
    apply Char.ext
    rw [cased, ← valEq]
    exact (UInt32.add_sub_cancel _ _).symm
  · exact Or.inl same

/-- The letters at the start of a word for a value without digits. -/
theorem letters_of_ofWord? {negative : Bool} {word : List Char} {number : Binary64}
    (read : ofWord? negative (word.map Char.toLower) = some number) :
    ∃ first second others, word = first :: second :: others ∧
      ((first = 'n' ∧ second ≠ 'u') ∨ first = 'N' ∨ first = 'i' ∨ first = 'I') := by
  have two : ∃ first second others, word = first :: second :: others ∧
      (first.toLower = 'n' ∧ second.toLower = 'a' ∨ first.toLower = 'i') := by
    rcases word with _ | ⟨first, _ | ⟨second, others⟩⟩
    · simp [ofWord?] at read
    · simp [ofWord?] at read
    · refine ⟨first, second, others, rfl, ?_⟩
      rw [ofWord?] at read
      split at read
      · rename_i isNan
        simp only [List.map_cons, List.cons.injEq] at isNan
        exact Or.inl ⟨isNan.1, isNan.2.1⟩
      · split at read
        · rename_i isInfinite
          simp only [List.map_cons, List.cons.injEq] at isInfinite
          exact Or.inr (isInfinite.elim And.left And.left)
        · cases read
  rcases two with ⟨first, second, others, wordEq, letters⟩
  refine ⟨first, second, others, wordEq, ?_⟩
  rcases letters with ⟨firstLower, secondLower⟩ | firstLower
  · have secondNe : second ≠ 'u' := by
      rintro rfl
      exact absurd secondLower (by decide)
    rcases eq_or_eq_of_toLower (by decide : 'N'.val = _) firstLower with small | large
    · exact Or.inl ⟨small, secondNe⟩
    · exact Or.inr (Or.inl large)
  · rcases eq_or_eq_of_toLower (by decide : 'I'.val = _) firstLower with small | large
    · exact Or.inr (Or.inr (Or.inl small))
    · exact Or.inr (Or.inr (Or.inr large))

theorem lexeme_of_letters {first second : Char} (others : List Char)
    (letters : (first = 'n' ∧ second ≠ 'u') ∨ first = 'N' ∨ first = 'i' ∨ first = 'I') :
    lexeme first (second :: others) = .broken false .malformed .malformed := by
  rcases letters with ⟨rfl, secondNe⟩ | rfl | rfl | rfl
  · exact if_neg secondNe
  · rfl
  · rfl
  · rfl

theorem tokens_of_broken {character : Char} {text : List Char} {isString : Bool}
    {wanted skipped : Problem} (notSpace : isSpace character = false)
    (read : lexeme character text = .broken isString wanted skipped) :
    tokens (character :: text) = [.broken isString wanted skipped] := by
  rw [tokens_of_lexeme notSpace read, tokens]

/-- A word for infinity or for the value that is not a number is no token. -/
theorem tokens_append_word {word : List Char} {number : Binary64}
    (noNumeral : Numeral.read? word = none) (read : Binary64.ofChars? word = some number)
    (rest : List Char) : tokens (word ++ rest) = [.broken false .malformed .malformed] := by
  rw [Binary64.ofChars?, noNumeral] at read
  rcases letters_of_ofWord? read with ⟨first, second, others, wordEq, letters⟩
  have firstDigit : first.isDigit = false := by
    rcases letters with ⟨rfl, _⟩ | rfl | rfl | rfl <;> decide
  have firstSpace : isSpace first = false := by
    rcases letters with ⟨rfl, _⟩ | rfl | rfl | rfl <;> decide
  have signs : word = first :: second :: others ∨ word = '-' :: first :: second :: others ∨
      word = '+' :: first :: second :: others := by
    split at wordEq
    · exact Or.inr (Or.inl (congrArg _ wordEq))
    · exact Or.inr (Or.inr (congrArg _ wordEq))
    · exact Or.inl wordEq
  rcases signs with rfl | rfl | rfl
  · exact tokens_of_broken firstSpace (lexeme_of_letters (others ++ rest) letters)
  · have noDigit : Numeral.spanDigits (first :: second :: (others ++ rest)) =
        ([], first :: second :: (others ++ rest)) := by
      simp [Numeral.spanDigits, firstDigit]
    have refused : lexeme '-' (first :: second :: (others ++ rest)) =
        .broken false .malformed .malformed := by
      change numberFrom true _ = _
      simp only [numberFrom, noDigit]
      rfl
    exact tokens_of_broken (by decide) refused
  · have refused : lexeme '+' (first :: second :: (others ++ rest)) =
        .broken false .malformed .malformed := rfl
    exact tokens_of_broken (by decide) refused

end Json

end TikzGlyph
