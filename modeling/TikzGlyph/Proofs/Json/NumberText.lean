import TikzGlyph.Binary64.Layout
import TikzGlyph.Proofs.Binary64.ShortestDigits
import TikzGlyph.Proofs.Json.Literal
import TikzGlyph.Proofs.Json.Scaling

/-!
# Numbers that are written and read back

A finite number is written in one of four shapes, and each is a literal of the same value whose
digits fit into a significand. Reading it gives a finite number of the same sign again, and as many
codes away at most as reading takes inexact steps.
-/

namespace TikzGlyph

namespace Json

open Binary64

/-! ## Digits of a whole number -/

theorem ofDigits_toDigits (number : Nat) : Numeral.ofDigits (Nat.toDigits 10 number) = number :=
  Nat.ofDigitChars_toDigits (by decide) (Nat.le_refl 10)

theorem isDigit_toDigits {number : Nat} {digit : Char}
    (digitMem : digit ∈ Nat.toDigits 10 number) : digit.isDigit = true :=
  Nat.isDigit_of_mem_toDigits (by decide) (Nat.le_refl 10) digitMem

theorem head?_toDigits {number : Nat} (positive : 0 < number) :
    (Nat.toDigits 10 number).head? ≠ some '0' := by
  have oneDigit : ∀ digit < 10, 0 < digit → [Nat.digitChar digit].head? ≠ some '0' := by decide
  induction number using Nat.strongRecOn with
  | ind number ih =>
      rcases Nat.lt_or_ge number 10 with small | large
      · rw [Nat.toDigits_of_lt_base small]
        exact oneDigit number small positive
      · rw [Nat.toDigits_of_base_le (by decide) large,
          List.head?_append_of_ne_nil _ Nat.toDigits_ne_nil]
        exact ih (number / 10) (by omega) (by omega)

theorem foldl_zeros (count value : Nat) :
    (List.replicate count '0').foldl Significand.extend value = value * 10 ^ count := by
  induction count generalizing value with
  | zero => simp
  | succ count ih =>
      rw [List.replicate_succ, List.foldl_cons, ih, Significand.extend, Nat.sub_self, Nat.add_zero,
        Nat.pow_succ]
      ring

theorem ofDigits_append_zeros (digits : List Char) (count : Nat) :
    Numeral.ofDigits (digits ++ List.replicate count '0') =
      Numeral.ofDigits digits * 10 ^ count := by
  rw [Numeral.ofDigits, List.foldl_append, foldl_zeros]
  rfl

theorem ofDigits_zeros_append (count : Nat) (digits : List Char) :
    Numeral.ofDigits (List.replicate count '0' ++ digits) = Numeral.ofDigits digits := by
  rw [Numeral.ofDigits, List.foldl_append, foldl_zeros, Nat.zero_mul]
  rfl

/-! ## The shapes of written numbers -/

/-- A literal writes a decimal number under a sign: its digits are those of the number, or it is a
whole number with a zero after the point. -/
structure Literal.Writes (literal : Literal) (negative : Bool) (decimal : Decimal) : Prop where
  negative_eq : literal.negative = negative
  unsigned_eq : literal.unsignedChars = Layout.json.decimalText decimal
  value_eq : (literal.digits : ℚ) * 10 ^ literal.scale = decimal.value
  digits_le : literal.digits ≤ 10 ^ 17
  exactly : (literal.digits = decimal.digits ∧ literal.scale = decimal.exponent) ∨
    literal.scale = -1
  exponent_le : literal.exponent.natAbs ≤ decimal.exponent.natAbs + 17

theorem fractionChars_eq (digits : List Char) :
    Literal.fractionChars digits = if digits = [] then [] else '.' :: digits := by
  cases digits <;> rfl

theorem Literal.writes_of_digits_eq {literal : Literal} {decimal : Decimal}
    (unsignedEq : literal.unsignedChars = Layout.json.decimalText decimal)
    (digitsEq : literal.digits = decimal.digits) (scaleEq : literal.scale = decimal.exponent)
    (few : decimal.digits ≤ 10 ^ 17)
    (exponentLe : literal.exponent.natAbs ≤ decimal.exponent.natAbs + 17) :
    literal.Writes literal.negative decimal := by
  refine ⟨rfl, unsignedEq, ?_, ?_, Or.inl ⟨digitsEq, scaleEq⟩, exponentLe⟩
  · rw [digitsEq, scaleEq, Decimal.value]
  · rwa [digitsEq]

section Shapes

variable {decimal : Decimal} (negative : Bool)

/-- Zeros between the point and the digits. -/
theorem exists_literal_of_zeros (few : decimal.digits ≤ 10 ^ 17) {zeros : Nat}
    (positional : Layout.json.positional (-zeros) = true)
    (pointEq : ((Nat.toDigits 10 decimal.digits).length : Int) + decimal.exponent = -zeros) :
    ∃ literal : Literal, literal.Writes negative decimal := by
  have isDigit : ∀ digit ∈ ['0'] ++ (List.replicate zeros '0' ++ Nat.toDigits 10 decimal.digits),
      digit.isDigit = true := by
    intro digit digitMem
    simp only [List.mem_append, List.mem_singleton, List.mem_replicate] at digitMem
    rcases digitMem with rfl | ⟨_, rfl⟩ | digitMem
    · decide
    · decide
    · exact isDigit_toDigits digitMem
  refine ⟨⟨negative, ['0'], _, none, by simp, by simp, isDigit⟩,
    Literal.writes_of_digits_eq ?_ ?_ ?_ few (Nat.zero_le _)⟩
  · have nonempty : List.replicate zeros '0' ++ Nat.toDigits 10 decimal.digits ≠ [] := by
      simp [Nat.toDigits_ne_nil]
    have notPositive : -(zeros : Int) ≤ 0 := by omega
    simp [Literal.unsignedChars, fractionChars_eq, nonempty, Layout.decimalText, pointEq,
      positional, Layout.positionalText, notPositive]
  · have zerosEq : ['0'] ++ (List.replicate zeros '0' ++ Nat.toDigits 10 decimal.digits) =
        List.replicate (zeros + 1) '0' ++ Nat.toDigits 10 decimal.digits := rfl
    rw [Literal.digits, zerosEq, ofDigits_zeros_append, ofDigits_toDigits]
  · simp only [Literal.scale, Literal.exponent, Option.map_none, Option.getD_none,
      List.length_append, List.length_replicate]
    omega

theorem ofDigits_whole (number zeros : Nat) :
    Numeral.ofDigits (Nat.toDigits 10 number ++ List.replicate zeros '0' ++ ['0']) =
      number * 10 ^ (zeros + 1) := by
  rw [List.append_assoc, ← List.replicate_one, List.replicate_append_replicate,
    ofDigits_append_zeros, ofDigits_toDigits]

theorem head?_whole {number zeros : Nat} (positiveOrZero : 0 < number ∨ zeros = 0)
    (zero : (Nat.toDigits 10 number ++ List.replicate zeros '0').head? = some '0') :
    (Nat.toDigits 10 number ++ List.replicate zeros '0').length = 1 := by
  rw [List.head?_append_of_ne_nil _ Nat.toDigits_ne_nil] at zero
  rcases Nat.eq_zero_or_pos number with rfl | positive
  · rw [positiveOrZero.resolve_left (Nat.lt_irrefl 0)]
    decide
  · exact absurd zero (head?_toDigits positive)

theorem mul_ten_pow_le {number zeros : Nat}
    (small : (Nat.toDigits 10 number).length + zeros ≤ 16) :
    number * 10 ^ (zeros + 1) ≤ 10 ^ 17 := by
  have numberLt := (Nat.length_toDigits_le_iff (by decide) Nat.length_toDigits_pos).mp
    (Nat.le_refl (Nat.toDigits 10 number).length)
  calc
    number * 10 ^ (zeros + 1) ≤ 10 ^ (Nat.toDigits 10 number).length * 10 ^ (zeros + 1) :=
      Nat.mul_le_mul_right _ numberLt.le
    _ = 10 ^ ((Nat.toDigits 10 number).length + (zeros + 1)) := (Nat.pow_add ..).symm
    _ ≤ 10 ^ 17 := Nat.pow_le_pow_right (by decide) (by omega)

theorem decimalText_whole {zeros : Nat} (exponentEq : decimal.exponent = zeros)
    (small : (Nat.toDigits 10 decimal.digits).length + zeros ≤ 16) :
    Layout.json.decimalText decimal =
      Nat.toDigits 10 decimal.digits ++ List.replicate zeros '0' ++ ['.', '0'] := by
  have pointEq : ((Nat.toDigits 10 decimal.digits).length : Int) + decimal.exponent =
      ((Nat.toDigits 10 decimal.digits).length + zeros : Nat) := by omega
  have counted : 0 < (Nat.toDigits 10 decimal.digits).length := Nat.length_toDigits_pos
  have positional : Layout.json.positional
      ((Nat.toDigits 10 decimal.digits).length + zeros : Nat) = true := by
    simp only [Layout.json, Bool.and_eq_true, decide_eq_true_eq]
    omega
  have notBefore : ¬((Nat.toDigits 10 decimal.digits).length + zeros : Nat) ≤ (0 : Int) := by
    omega
  rw [Layout.decimalText]
  simp only [pointEq, positional, if_true, Layout.positionalText]
  rw [if_neg notBefore, if_pos (by omega), Int.toNat_natCast, Nat.add_sub_cancel_left]
  simp [Layout.json]

/-- Zeros between the digits and the point, and one more zero after it. -/
theorem exists_literal_of_whole (positiveOrZero : 0 < decimal.digits ∨ decimal.exponent = 0)
    {zeros : Nat} (exponentEq : decimal.exponent = zeros)
    (small : (Nat.toDigits 10 decimal.digits).length + zeros ≤ 16) :
    ∃ literal : Literal, literal.Writes negative decimal := by
  have isDigit : ∀ digit ∈ Nat.toDigits 10 decimal.digits ++ List.replicate zeros '0' ++ ['0'],
      digit.isDigit = true := by
    intro digit digitMem
    simp only [List.mem_append, List.mem_singleton, List.mem_replicate] at digitMem
    rcases digitMem with (digitMem | ⟨_, rfl⟩) | rfl
    · exact isDigit_toDigits digitMem
    · decide
    · decide
  have leading := @head?_whole decimal.digits zeros (by omega)
  refine ⟨⟨negative, _, ['0'], none, by simp [Nat.toDigits_ne_nil], leading, isDigit⟩, rfl, ?_, ?_,
    ?_, Or.inr rfl, Nat.zero_le _⟩
  · rw [decimalText_whole exponentEq small]
    simp [Literal.unsignedChars, Literal.fractionChars]
  · rw [Literal.digits, ofDigits_whole, Decimal.value, exponentEq]
    simp only [Literal.scale, Literal.exponent, Option.map_none, Option.getD_none, List.length_cons,
      List.length_nil, Nat.cast_mul, Nat.cast_pow, Nat.cast_ofNat, zpow_natCast, pow_succ]
    norm_num
    ring
  · rw [Literal.digits, ofDigits_whole]
    exact mul_ten_pow_le small

theorem isDigit_take_drop {number count : Nat} :
    ∀ digit ∈ (Nat.toDigits 10 number).take count ++ (Nat.toDigits 10 number).drop count,
      digit.isDigit = true := by
  rw [List.take_append_drop]
  exact fun digit => isDigit_toDigits

/-- A point in the midst of the digits. -/
theorem exists_literal_of_point (few : decimal.digits ≤ 10 ^ 17) {point : Nat}
    (positional : Layout.json.positional point = true)
    (pointEq : ((Nat.toDigits 10 decimal.digits).length : Int) + decimal.exponent = point)
    (positive : 0 < point) (inside : point < (Nat.toDigits 10 decimal.digits).length) :
    ∃ literal : Literal, literal.Writes negative decimal := by
  have fractionNonempty : (Nat.toDigits 10 decimal.digits).drop point ≠ [] := by
    simpa using inside
  have wholeNonempty : (Nat.toDigits 10 decimal.digits).take point ≠ [] := by
    simp [Nat.toDigits_ne_nil]
    omega
  have leading : ((Nat.toDigits 10 decimal.digits).take point).head? = some '0' →
      ((Nat.toDigits 10 decimal.digits).take point).length = 1 := by
    intro zero
    rw [List.head?_take, if_neg (by omega)] at zero
    rcases Nat.eq_zero_or_pos decimal.digits with noDigit | hasDigits
    · rw [noDigit] at inside
      have short : (Nat.toDigits 10 0).length = 1 := by decide
      omega
    · exact absurd zero (head?_toDigits hasDigits)
  refine ⟨⟨negative, _, _, none, wholeNonempty, leading, isDigit_take_drop⟩,
    Literal.writes_of_digits_eq ?_ ?_ ?_ few (Nat.zero_le _)⟩
  · rw [Layout.decimalText]
    simp only [pointEq, positional, if_true, Layout.positionalText]
    rw [if_neg (by omega), if_neg (by simpa using inside), Int.toNat_natCast]
    simp [Literal.unsignedChars, fractionChars_eq, fractionNonempty]
  · rw [Literal.digits, List.take_append_drop, ofDigits_toDigits]
  · simp only [Literal.scale, Literal.exponent, Option.map_none, Option.getD_none, List.length_drop]
    omega

/-- The power of ten after a mark. -/
def writtenPower (exponent : Int) : Literal.Power where
  mark := 'e'
  sign := some (decide (exponent < 0))
  digits := Nat.toDigits 10 exponent.natAbs
  isMark := Or.inl rfl
  nonempty := Nat.toDigits_ne_nil
  isDigit _ := isDigit_toDigits

@[simp]
theorem exponent_writtenPower (exponent : Int) : (writtenPower exponent).exponent = exponent := by
  simp only [Literal.Power.exponent, writtenPower, ofDigits_toDigits, Option.some.injEq,
    decide_eq_true_eq]
  split <;> omega

theorem chars_writtenPower (exponent : Int) :
    (writtenPower exponent).chars =
      'e' :: if exponent < 0 then '-' :: Nat.toDigits 10 (-exponent).toNat
        else Layout.json.powerSign ++ Nat.toDigits 10 exponent.toNat := by
  rw [Literal.Power.chars]
  simp only [writtenPower]
  split
  · rename_i negative
    have sizeEq : exponent.natAbs = (-exponent).toNat := by omega
    rw [decide_eq_true negative, sizeEq]
    rfl
  · rename_i nonneg
    have sizeEq : exponent.natAbs = exponent.toNat := by omega
    rw [decide_eq_false nonneg, sizeEq]
    rfl

/-- One digit before the point, and a power of ten. -/
theorem exists_literal_of_power (few : decimal.digits ≤ 10 ^ 17)
    (scientific : Layout.json.positional
      ((Nat.toDigits 10 decimal.digits).length + decimal.exponent) = false) :
    ∃ literal : Literal, literal.Writes negative decimal := by
  have counted : 0 < (Nat.toDigits 10 decimal.digits).length := Nat.length_toDigits_pos
  have single : ((Nat.toDigits 10 decimal.digits).take 1).length = 1 := by
    simp
    omega
  have nonempty : (Nat.toDigits 10 decimal.digits).take 1 ≠ [] := by
    intro empty
    rw [empty] at single
    cases single
  refine ⟨⟨negative, (Nat.toDigits 10 decimal.digits).take 1,
    (Nat.toDigits 10 decimal.digits).drop 1,
    some (writtenPower ((Nat.toDigits 10 decimal.digits).length + decimal.exponent - 1)), nonempty,
    fun _ => single, isDigit_take_drop⟩, Literal.writes_of_digits_eq ?_ ?_ ?_ few ?_⟩
  · rw [Layout.decimalText]
    simp only [scientific, Bool.false_eq_true, if_false, Layout.scientificText,
      Literal.unsignedChars, Option.map_some, Option.getD_some, fractionChars_eq,
      chars_writtenPower]
  · rw [Literal.digits, List.take_append_drop, ofDigits_toDigits]
  · simp only [Literal.scale, Literal.exponent, Option.map_some, Option.getD_some,
      exponent_writtenPower, List.length_drop]
    omega
  · have short : (Nat.toDigits 10 decimal.digits).length ≤ 18 :=
      (Nat.length_toDigits_le_iff (by decide) (by decide)).mpr (Nat.lt_of_le_of_lt few (by decide))
    simp only [Literal.exponent, Option.map_some, Option.getD_some, exponent_writtenPower]
    omega

theorem exists_literal (positiveOrZero : 0 < decimal.digits ∨ decimal.exponent = 0)
    (few : decimal.digits ≤ 10 ^ 17) : ∃ literal : Literal, literal.Writes negative decimal := by
  have counted : 0 < (Nat.toDigits 10 decimal.digits).length := Nat.length_toDigits_pos
  cases positional : Layout.json.positional
      ((Nat.toDigits 10 decimal.digits).length + decimal.exponent) with
  | false => exact exists_literal_of_power negative few positional
  | true =>
      have range := positional
      simp only [Layout.json, Bool.and_eq_true, decide_eq_true_eq] at range
      rcases le_or_gt (((Nat.toDigits 10 decimal.digits).length : Int) + decimal.exponent) 0 with
        before | after
      · rcases Int.eq_ofNat_of_zero_le (Int.neg_nonneg_of_nonpos before) with ⟨zeros, zerosEq⟩
        have pointEq : ((Nat.toDigits 10 decimal.digits).length : Int) + decimal.exponent =
            -zeros := by omega
        rw [pointEq] at positional
        exact exists_literal_of_zeros negative few positional pointEq
      · rcases lt_or_ge decimal.exponent 0 with inside | whole
        · rcases Int.eq_ofNat_of_zero_le after.le with ⟨point, pointEq⟩
          rw [pointEq] at positional
          exact exists_literal_of_point negative few positional pointEq (by omega) (by omega)
        · rcases Int.eq_ofNat_of_zero_le whole with ⟨zeros, zerosEq⟩
          exact exists_literal_of_whole negative positiveOrZero zerosEq (by omega)

end Shapes

/-! ## Reading back -/

theorem ofCode_zero (negative : Bool) : ofCode negative 0 = .zero negative := rfl

theorem eq_zero_of_rounds {result : Binary64} (rounds : Rounds false 0 result) :
    result = .zero false := by
  rcases rounds with ⟨code, near, rfl⟩
  rw [← value_zero] at near
  rw [near.unique (isNearest_value 0), ofCode_zero]

theorem scale?_zero (exponent : Int) : scale? (.zero false) exponent = some (.zero false) := by
  rw [scale?]
  split
  · rename_i small
    rcases exists_powerOfTen small with ⟨power, powerEq, within⟩
    have powerPos := within.symm.right_pos (by positivity)
    have nonzero : power.val ≠ 0 := by
      intro zero
      rw [zero, value_zero] at powerPos
      exact powerPos.false
    rw [powerEq]
    split
    · have rounds := rounds_mul false false ⟨0, by decide⟩ power
      rw [value_zero, zero_mul] at rounds
      exact congrArg some (eq_zero_of_rounds rounds)
    · have rounds := rounds_div false false ⟨0, by decide⟩ nonzero
      rw [value_zero, zero_div] at rounds
      exact congrArg some (eq_zero_of_rounds rounds)
  · rw [if_pos rfl]

theorem number?_of_digits_eq_zero (negative full : Bool) (scale exponent : Int) :
    number? negative ⟨0, scale, full⟩ exponent = some (.zero negative) := by
  have zeroEq : ofNat false 0 = .zero false := by
    have rounds := rounds_ofNat false 0
    rw [Nat.cast_zero] at rounds
    exact eq_zero_of_rounds rounds
  have finite : (if negative then (Binary64.zero false).negate else .zero false).finite? =
      some (.zero negative) := by
    cases negative <;> rfl
  simp only [number?, or_true, if_true, zeroEq, scale?_zero, ite_self, Option.bind_some, finite]

theorem finite?_ofCode {negative : Bool} {code : Nat} (bounded : code < magnitudeCount) :
    (if negative then (ofCode false code).negate else ofCode false code).finite? =
      some (.finite negative ⟨code, bounded⟩) := by
  rw [ofCode_of_lt bounded]
  cases negative <;> rfl

/-- The three largest numbers are not read as infinite ones. -/
theorem largest_ne_infinite : ∀ offset < 3,
    (shortest .toEven (magnitudeCount - 1 - offset)).exponent = 292 ∧
      (ofNat false (shortest .toEven (magnitudeCount - 1 - offset)).digits).mul
        (powerOfTen 292) ≠ .infinite false := by
  decide +kernel

theorem Literal.Writes.exponent_small {literal : Literal} {negative : Bool} {code : Nat}
    (writes : literal.Writes negative (shortest .toEven code)) (positive : 0 < code)
    (bounded : code < magnitudeCount) : literal.exponent.natAbs ≤ largestExponent := by
  rcases isNearest_shortest .toEven positive with ⟨near, digitsPos, few⟩
  have atMost := Json.exponent_le near bounded digitsPos
  have atLeast := neg_616_le near positive few
  have exponentLe := writes.exponent_le
  have large : 633 ≤ largestExponent := by decide
  omega

/-- The steps of reading do not lead past the largest number. -/
theorem Literal.Writes.lt_magnitudeCount {literal : Literal} {negative : Bool} {code other : Nat}
    (writes : literal.Writes negative (shortest .toEven code)) (bounded : code < magnitudeCount)
    (digitsPos : 0 < (shortest .toEven code).digits)
    (scaled : scale? (ofNat false literal.digits) literal.scale = some (ofCode false other))
    (above : other ≤ code + inexactSteps literal.digits literal.scale) :
    other < magnitudeCount := by
  apply Nat.lt_of_not_le
  intro past
  have fewSteps : inexactSteps literal.digits literal.scale ≤ 3 := by
    unfold inexactSteps
    split <;> split <;> split <;> omega
  have existsOffset : ∃ offset, offset < 3 ∧ code = magnitudeCount - 1 - offset :=
    ⟨magnitudeCount - 1 - code, by omega, by omega⟩
  rcases existsOffset with ⟨offset, offsetLt, codeEq⟩
  rcases largest_ne_infinite offset offsetLt with ⟨exponentEq, notInfinite⟩
  rw [← codeEq] at exponentEq notInfinite
  rcases writes.exactly with ⟨digitsEq, scaleEq⟩ | scaleEq
  · rw [digitsEq, scaleEq, exponentEq, scale?, if_pos (by decide), if_pos (by decide)] at scaled
    have sizeEq : (292 : Int).natAbs = 292 := rfl
    have productEq := Option.some.inj scaled
    rw [ofCode_of_le past, sizeEq] at productEq
    exact notInfinite productEq
  · have reached : (10 : ℚ) ^ (292 : Int) ≤ literal.digits * 10 ^ literal.scale := by
      rw [writes.value_eq, Decimal.value, exponentEq]
      exact le_mul_of_one_le_left (by positivity) (Nat.one_le_cast.mpr digitsPos)
    have bound := le_exponent writes.digits_le reached
    omega

/-- A written number is read as a finite number of the same sign, and as many codes away at most as
there are inexact steps. -/
theorem exists_value?_near {literal : Literal} {negative : Bool} {code : Nat}
    (writes : literal.Writes negative (shortest .toEven code)) (bounded : code < magnitudeCount) :
    ∃ other : Fin magnitudeCount, literal.value? = some (.finite negative other) ∧
      other ≤ code + inexactSteps literal.digits literal.scale ∧
      code ≤ other + inexactSteps literal.digits literal.scale := by
  have fewPlaces : (10 : Nat) ^ 17 < UInt64.size := by decide
  have fits := Nat.lt_of_le_of_lt writes.digits_le fewPlaces
  rw [Literal.value?, Literal.ofDigits_eq fits, writes.negative_eq]
  rcases Nat.eq_zero_or_pos code with rfl | positive
  · have noDigit : literal.digits = 0 := by
      have valueEq := writes.value_eq
      have shortestZero : (shortest .toEven 0).value = 0 := by simp [shortest, Decimal.value]
      rw [shortestZero, mul_eq_zero, Nat.cast_eq_zero] at valueEq
      exact valueEq.resolve_right (zpow_ne_zero _ (by norm_num))
    rw [noDigit, number?_of_digits_eq_zero]
    exact ⟨⟨0, bounded⟩, rfl, Nat.zero_le _, Nat.zero_le _⟩
  · rcases isNearest_shortest .toEven positive with ⟨near, digitsPos, few⟩
    have literalNear := writes.value_eq ▸ near
    have literalPos : 0 < literal.digits := by
      apply Nat.pos_of_ne_zero
      intro noDigit
      have valueEq := writes.value_eq
      rw [noDigit, Nat.cast_zero, zero_mul, Decimal.value] at valueEq
      have valuePos : (0 : ℚ) < (shortest .toEven code).digits *
          10 ^ (shortest .toEven code).exponent :=
        mul_pos (Nat.cast_pos.mpr digitsPos) (by positivity)
      exact valuePos.ne valueEq
    rcases exists_scale?_near literalNear bounded positive literalPos writes.digits_le with
      ⟨other, scaled, above, below⟩
    have otherBounded := writes.lt_magnitudeCount bounded digitsPos scaled above
    refine ⟨⟨other, otherBounded⟩, ?_, above, below⟩
    have small : ¬largestExponent < literal.exponent.natAbs :=
      Nat.not_lt_of_le (writes.exponent_small positive bounded)
    have scaleEq : -(literal.fraction.length : Int) + literal.exponent = literal.scale := by
      rw [Literal.scale]
      omega
    simp only [number?, if_neg small, scaleEq, scaled, Option.bind_some]
    exact finite?_ofCode otherBounded

/-- What a finite number is read back as: the text that was written is a literal, and the number
read from it is as many codes away at most as reading the literal takes inexact steps. -/
def IsReadBack (written read : Binary64) : Prop :=
  ∃ (literal : Literal) (negative : Bool) (magnitude other : Fin magnitudeCount),
    written = .finite negative magnitude ∧ read = .finite negative other ∧
      written.text .json = String.ofList literal.chars ∧ literal.value? = some read ∧
      ((other : Int) - magnitude).natAbs ≤ inexactSteps literal.digits literal.scale

/-- A number is written so short that reading it takes no inexact step. -/
def IsWrittenShort (number : Binary64) : Prop :=
  ∃ literal : Literal, number.text .json = String.ofList literal.chars ∧
    inexactSteps literal.digits literal.scale = 0

theorem IsReadBack.eq_of_isWrittenShort {written read : Binary64} (back : IsReadBack written read)
    (short : IsWrittenShort written) : read = written := by
  rcases back with ⟨literal, negative, magnitude, other, rfl, rfl, textEq, _, near⟩
  rcases short with ⟨shortLiteral, shortEq, noSteps⟩
  have charsEq : literal.chars = shortLiteral.chars := by
    rw [← String.toList_ofList (l := literal.chars), ← textEq, shortEq, String.toList_ofList]
  rcases Literal.eq_of_chars_eq charsEq with ⟨digitsEq, scaleEq⟩
  rw [digitsEq, scaleEq, noSteps] at near
  congr 1
  apply Fin.ext
  omega

/-- Every finite number is written as one token that holds what it is read back as. -/
theorem exists_isReadBack {written : Binary64} (finite : written.IsFinite) :
    ∃ read, IsReadBack written read ∧ ∀ rest, EndsNumber rest →
      tokens ((written.text .json).toList ++ rest) = .number (some read) :: tokens rest := by
  cases written with
  | infinite negative => exact finite.elim
  | nan negative payload => exact finite.elim
  | finite negative magnitude =>
      have decimalSmall : 0 < (shortest .toEven magnitude).digits ∨
          (shortest .toEven magnitude).exponent = 0 := by
        rcases Nat.eq_zero_or_pos magnitude with zero | positive
        · exact Or.inr (by rw [zero]; rfl)
        · exact Or.inl (isNearest_shortest .toEven positive).2.1
      have few : (shortest .toEven magnitude).digits ≤ 10 ^ 17 := by
        rcases Nat.eq_zero_or_pos magnitude with zero | positive
        · exact Nat.le_trans (by rw [zero]; exact Nat.le_refl 0) (Nat.zero_le _)
        · exact (isNearest_shortest .toEven positive).2.2
      rcases exists_literal negative decimalSmall few with ⟨literal, writes⟩
      rcases exists_value?_near writes magnitude.isLt with ⟨other, valueEq, above, below⟩
      have textEq : (Binary64.finite negative magnitude).text .json =
          String.ofList literal.chars := by
        have tieEq : Layout.json.tie = .toEven := rfl
        rw [Binary64.text, Layout.chars, Literal.chars, writes.negative_eq, writes.unsigned_eq,
          tieEq]
      refine ⟨.finite negative other, ⟨literal, negative, magnitude, other, rfl, rfl, textEq,
        valueEq, by omega⟩, ?_⟩
      intro rest ends
      rw [textEq, String.toList_ofList, tokens_append_literal literal ends, valueEq]

end Json

end TikzGlyph
