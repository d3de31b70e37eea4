import TikzGlyph.Json.Token

/-!
# Written numbers

A JSON number is an optional minus, digits without a superfluous zero at the front, and optionally a
point with more digits and a power of ten. `Literal` is a number written that way, and in front of
any text that does not continue it, it is read as one token. As long as its digits fit into a
significand none of them is dropped.
-/

namespace TikzGlyph

namespace Json

/-- A written power of ten. -/
structure Literal.Power where
  mark : Char
  /-- Whether there is a sign, and whether it is a minus. -/
  sign : Option Bool
  digits : List Char
  isMark : mark = 'e' ∨ mark = 'E'
  nonempty : digits ≠ []
  isDigit : ∀ digit ∈ digits, digit.isDigit = true

/-- A written number. -/
structure Literal where
  negative : Bool
  whole : List Char
  fraction : List Char
  power : Option Literal.Power
  nonempty : whole ≠ []
  leading : whole.head? = some '0' → whole.length = 1
  isDigit : ∀ digit ∈ whole ++ fraction, digit.isDigit = true

namespace Literal

namespace Power

def signChars : Option Bool → List Char
  | none => []
  | some true => ['-']
  | some false => ['+']

def chars (power : Power) : List Char :=
  power.mark :: (signChars power.sign ++ power.digits)

def exponent (power : Power) : Int :=
  if power.sign = some true then -(Numeral.ofDigits power.digits : Int)
  else Numeral.ofDigits power.digits

end Power

/-- The point and the digits after it. -/
def fractionChars : List Char → List Char
  | [] => []
  | first :: rest => '.' :: first :: rest

/-- The text of a number after its sign. -/
def unsignedChars (literal : Literal) : List Char :=
  literal.whole ++ fractionChars literal.fraction ++ (literal.power.map Power.chars).getD []

def chars (literal : Literal) : List Char :=
  (if literal.negative then ['-'] else []) ++ literal.unsignedChars

/-- The written power of ten. -/
def exponent (literal : Literal) : Int := (literal.power.map Power.exponent).getD 0

/-- The number that is read. -/
def value? (literal : Literal) : Option Binary64 :=
  number? literal.negative (.ofDigits literal.whole literal.fraction) literal.exponent

/-- All digits, without the point. -/
def digits (literal : Literal) : Nat := Numeral.ofDigits (literal.whole ++ literal.fraction)

/-- The power of ten of the last digit. -/
def scale (literal : Literal) : Int := literal.exponent - literal.fraction.length

end Literal

/-- A text does not continue a number in front of it. -/
def EndsNumber (text : List Char) : Prop :=
  ∀ character, text.head? = some character →
    character.isDigit = false ∧ character ≠ '.' ∧ character ≠ 'e' ∧ character ≠ 'E'

theorem endsNumber_nil : EndsNumber [] := by
  rintro character ⟨⟩

/-- A text is made of tokens that end before whatever follows it. -/
def SplitsInto (text : List Char) (front : List Token) : Prop :=
  ∀ rest, tokens (text ++ rest) = front ++ tokens rest

/-- A text is made of tokens that end before whatever does not continue a number. -/
def IsReadAs (text : List Char) (front : List Token) : Prop :=
  ∀ rest, EndsNumber rest → tokens (text ++ rest) = front ++ tokens rest

/-! ## Reading literals -/

theorem spanDigits_append {digits rest : List Char}
    (isDigit : ∀ digit ∈ digits, digit.isDigit = true)
    (ends : ∀ character, rest.head? = some character → character.isDigit = false) :
    Numeral.spanDigits (digits ++ rest) = (digits, rest) := by
  have restStops : rest.takeWhile Char.isDigit = [] ∧ rest.dropWhile Char.isDigit = rest := by
    cases rest with
    | nil => exact ⟨rfl, rfl⟩
    | cons first others => simp [ends first rfl]
  rw [Numeral.spanDigits, List.takeWhile_append_of_pos isDigit,
    List.dropWhile_append_of_pos isDigit, restStops.1, restStops.2, List.append_nil]

theorem ne_sign_of_isDigit {character : Char} (isDigit : character.isDigit = true) :
    character ≠ '-' ∧ character ≠ '+' := by
  constructor <;>
  · rintro rfl
    exact absurd isDigit (by decide)

theorem isSpace_of_isDigit {character : Char} (isDigit : character.isDigit = true) :
    isSpace character = false := by
  cases space : isSpace character with
  | false => rfl
  | true =>
      simp only [isSpace, Bool.or_eq_true, beq_iff_eq] at space
      rcases space with ((rfl | rfl) | rfl) | rfl <;> exact absurd isDigit (by decide)

theorem spanSign_append (power : Literal.Power) (rest : List Char) :
    Numeral.spanSign (Literal.Power.signChars power.sign ++ power.digits ++ rest) =
      (decide (power.sign = some true), power.digits ++ rest) := by
  cases signEq : power.sign with
  | some minus => cases minus <;> rfl
  | none =>
      rcases List.exists_cons_of_ne_nil power.nonempty with ⟨first, others, digitsEq⟩
      have firstDigit := power.isDigit first (by simp [digitsEq])
      have notSign := ne_sign_of_isDigit firstDigit
      simp only [Literal.Power.signChars, digitsEq, List.nil_append, List.cons_append]
      unfold Numeral.spanSign
      split
      · rename_i same
        exact absurd (List.cons.inj same).1 notSign.1
      · rename_i same
        exact absurd (List.cons.inj same).1 notSign.2
      · simp

theorem exponentFrom_append {negative : Bool} {significand : Significand} (power : Literal.Power)
    {rest : List Char} (ends : EndsNumber rest) :
    exponentFrom negative significand (Literal.Power.signChars power.sign ++ power.digits ++ rest) =
      ⟨.number (number? negative significand power.exponent), rest⟩ := by
  have spanned := spanDigits_append power.isDigit fun character head => (ends character head).1
  simp only [exponentFrom, spanSign_append, spanned, if_neg power.nonempty, Literal.Power.exponent,
    decide_eq_true_eq]

theorem afterDigits_append {negative : Bool} {significand : Significand}
    (power : Option Literal.Power) {rest : List Char} (ends : EndsNumber rest) :
    afterDigits negative significand ((power.map Literal.Power.chars).getD [] ++ rest) =
      ⟨.number (number? negative significand ((power.map Literal.Power.exponent).getD 0)),
        rest⟩ := by
  cases power with
  | none =>
      simp only [Option.map_none, Option.getD_none, List.nil_append]
      cases rest with
      | nil => rfl
      | cons first others =>
          rcases ends first rfl with ⟨_, _, notMark, notCapital⟩
          rw [afterDigits, if_neg (by simp [notMark, notCapital])]
  | some power =>
      simp only [Option.map_some, Option.getD_some, Literal.Power.chars, List.cons_append]
      rw [afterDigits, if_pos power.isMark]
      exact exponentFrom_append power ends

theorem power_ends_digits (power : Option Literal.Power) {rest : List Char}
    (ends : EndsNumber rest) :
    ∀ character, ((power.map Literal.Power.chars).getD [] ++ rest).head? = some character →
      character.isDigit = false ∧ character ≠ '.' := by
  intro character head
  cases power with
  | none =>
      rcases ends character head with ⟨notDigit, notPoint, _⟩
      exact ⟨notDigit, notPoint⟩
  | some power =>
      cases head
      rcases power.isMark with mark | mark <;> rw [mark] <;> decide

/-- The digits at the start of a literal end at its point, at its mark or with it. -/
theorem Literal.fraction_ends_digits (literal : Literal) {rest : List Char}
    (ends : EndsNumber rest) :
    ∀ character, (fractionChars literal.fraction ++
      ((literal.power.map Power.chars).getD [] ++ rest)).head? = some character →
        character.isDigit = false := by
  intro character head
  cases fractionEq : literal.fraction with
  | nil =>
      rw [fractionEq, fractionChars, List.nil_append] at head
      exact (power_ends_digits literal.power ends character head).1
  | cons first others =>
      rw [fractionEq] at head
      cases head
      decide

/-- After its whole digits, the fraction and the power of ten of a number are read. -/
theorem afterWhole_append {negative : Bool} {whole fraction : List Char}
    (isDigit : ∀ digit ∈ fraction, digit.isDigit = true) (power : Option Literal.Power)
    {rest : List Char} (ends : EndsNumber rest) :
    afterWhole negative whole (Literal.fractionChars fraction ++
        ((power.map Literal.Power.chars).getD [] ++ rest)) =
      ⟨.number (number? negative (.ofDigits whole fraction)
        ((power.map Literal.Power.exponent).getD 0)), rest⟩ := by
  have digitsEnd := power_ends_digits power ends
  have readPower := @afterDigits_append negative (.ofDigits whole fraction) power rest ends
  generalize (power.map Literal.Power.chars).getD [] ++ rest = afterFraction at *
  cases fraction with
  | nil =>
      rw [Literal.fractionChars, List.nil_append]
      unfold afterWhole
      split
      · exact absurd rfl (digitsEnd '.' rfl).2
      · exact readPower
  | cons first others =>
      have spanned := spanDigits_append isDigit fun character head =>
        (digitsEnd character head).1
      rw [List.cons_append] at spanned
      rw [Literal.fractionChars, List.cons_append, List.cons_append, afterWhole]
      simp only [spanned]
      rw [if_neg (List.cons_ne_nil _ _)]
      exact readPower

theorem numberFrom_append (literal : Literal) {rest : List Char} (ends : EndsNumber rest) :
    numberFrom literal.negative (literal.unsignedChars ++ rest) =
      ⟨.number literal.value?, rest⟩ := by
  have single : ¬(literal.whole.head? = some '0' ∧ 1 < literal.whole.length) := by
    rintro ⟨zero, more⟩
    rw [literal.leading zero] at more
    exact absurd more (by decide)
  have wholeDigits : ∀ digit ∈ literal.whole, digit.isDigit = true := fun digit digitMem =>
    literal.isDigit digit (List.mem_append_left _ digitMem)
  have fractionDigits : ∀ digit ∈ literal.fraction, digit.isDigit = true :=
    fun digit digitMem => literal.isDigit digit (List.mem_append_right _ digitMem)
  have spanned := spanDigits_append wholeDigits (literal.fraction_ends_digits ends)
  rw [Literal.unsignedChars, List.append_assoc, List.append_assoc]
  simp only [numberFrom, spanned, if_neg literal.nonempty, if_neg single]
  exact afterWhole_append fractionDigits literal.power ends

theorem lexeme_of_isDigit {character : Char} (isDigit : character.isDigit = true)
    (rest : List Char) : lexeme character rest = numberFrom false (character :: rest) := by
  unfold lexeme
  split
  case h_12 => rw [if_pos isDigit]
  all_goals exact absurd isDigit (by decide)

theorem tokens_of_lexeme {character : Char} {text rest : List Char} {token : Token}
    (notSpace : isSpace character = false) (read : lexeme character text = ⟨token, rest⟩) :
    tokens (character :: text) = token :: tokens rest := by
  rw [tokens, if_neg (by simp [notSpace]), read]

theorem splitsInto_of_lexeme {character : Char} {token : Token}
    (notSpace : isSpace character = false)
    (read : ∀ rest, lexeme character rest = ⟨token, rest⟩) : SplitsInto [character] [token] :=
  fun rest => tokens_of_lexeme notSpace (read rest)

theorem tokens_append_literal (literal : Literal) {rest : List Char} (ends : EndsNumber rest) :
    tokens (literal.chars ++ rest) = .number literal.value? :: tokens rest := by
  have read := numberFrom_append literal ends
  rw [Literal.chars, List.append_assoc]
  cases sign : literal.negative with
  | true =>
      rw [sign] at read
      exact tokens_of_lexeme (by decide) read
  | false =>
      rcases List.exists_cons_of_ne_nil literal.nonempty with ⟨first, others, wholeEq⟩
      have firstDigit : first.isDigit = true := literal.isDigit first (by simp [wholeEq])
      have unsignedEq : ∃ more, literal.unsignedChars ++ rest = first :: more := by
        simp [Literal.unsignedChars, wholeEq]
      rcases unsignedEq with ⟨more, moreEq⟩
      rw [sign, moreEq, ← lexeme_of_isDigit firstDigit] at read
      rw [moreEq]
      exact tokens_of_lexeme (isSpace_of_isDigit firstDigit) read

/-! ## Literals are told apart by their texts -/

theorem digits_append_inj {left right rest other : List Char}
    (leftDigits : ∀ digit ∈ left, digit.isDigit = true)
    (rightDigits : ∀ digit ∈ right, digit.isDigit = true)
    (restEnds : ∀ character, rest.head? = some character → character.isDigit = false)
    (otherEnds : ∀ character, other.head? = some character → character.isDigit = false)
    (same : left ++ rest = right ++ other) : left = right ∧ rest = other := by
  have leftSpanned := spanDigits_append leftDigits restEnds
  rw [same, spanDigits_append rightDigits otherEnds] at leftSpanned
  cases leftSpanned
  exact ⟨rfl, rfl⟩

namespace Literal

theorem Power.exponent_eq_of_chars_eq {left right : Power} (same : left.chars = right.chars) :
    left.exponent = right.exponent := by
  have tailEq : signChars left.sign ++ left.digits = signChars right.sign ++ right.digits :=
    (List.cons.inj same).2
  have leftSpanned := spanSign_append left []
  rw [List.append_nil, tailEq, ← List.append_nil (_ ++ _), spanSign_append right []]
    at leftSpanned
  simp only [List.append_nil, Prod.mk.injEq, decide_eq_decide] at leftSpanned
  simp only [exponent, leftSpanned.1, leftSpanned.2]

theorem exponent_eq_of_chars_eq {left right : Option Power}
    (same : (left.map Power.chars).getD [] = (right.map Power.chars).getD []) :
    (left.map Power.exponent).getD 0 = (right.map Power.exponent).getD 0 := by
  cases left with
  | none =>
      cases right with
      | none => rfl
      | some right => cases same
  | some left =>
      cases right with
      | none => cases same
      | some right => exact Power.exponent_eq_of_chars_eq same

/-- The text after the whole digits of a literal determines its fraction and its power of ten. -/
theorem fraction_eq_of_chars_eq {left right : List Char} {leftPower rightPower : Option Power}
    (leftDigits : ∀ digit ∈ left, digit.isDigit = true)
    (rightDigits : ∀ digit ∈ right, digit.isDigit = true)
    (same : fractionChars left ++ (leftPower.map Power.chars).getD [] =
      fractionChars right ++ (rightPower.map Power.chars).getD []) :
    left = right ∧
      (leftPower.map Power.exponent).getD 0 = (rightPower.map Power.exponent).getD 0 := by
  have leftEnds := power_ends_digits leftPower endsNumber_nil
  have rightEnds := power_ends_digits rightPower endsNumber_nil
  rw [List.append_nil] at leftEnds rightEnds
  cases left with
  | nil =>
      cases right with
      | nil => exact ⟨rfl, exponent_eq_of_chars_eq same⟩
      | cons first others =>
          rw [fractionChars, List.nil_append] at same
          rw [same] at leftEnds
          exact absurd rfl (leftEnds '.' rfl).2
  | cons first others =>
      cases right with
      | nil =>
          rw [fractionChars, fractionChars, List.nil_append] at same
          rw [← same] at rightEnds
          exact absurd rfl (rightEnds '.' rfl).2
      | cons rightFirst rightOthers =>
          rcases digits_append_inj leftDigits rightDigits
              (fun character head => (leftEnds character head).1)
              (fun character head => (rightEnds character head).1) (List.cons.inj same).2 with
            ⟨digitsEq, powersEq⟩
          exact ⟨digitsEq, exponent_eq_of_chars_eq powersEq⟩

theorem exists_cons_unsignedChars (literal : Literal) :
    ∃ first others, literal.unsignedChars = first :: others ∧ first ≠ '-' := by
  rcases List.exists_cons_of_ne_nil literal.nonempty with ⟨first, others, wholeEq⟩
  have firstDigit : first.isDigit = true := literal.isDigit first (by simp [wholeEq])
  exact ⟨first, _, by rw [unsignedChars, wholeEq]; rfl, (ne_sign_of_isDigit firstDigit).1⟩

theorem unsignedChars_eq_of_chars_eq {left right : Literal} (same : left.chars = right.chars) :
    left.unsignedChars = right.unsignedChars := by
  rcases left.exists_cons_unsignedChars with ⟨leftFirst, leftOthers, leftEq, leftUnsigned⟩
  rcases right.exists_cons_unsignedChars with ⟨rightFirst, rightOthers, rightEq, rightUnsigned⟩
  rw [chars, chars] at same
  cases leftSign : left.negative <;> cases rightSign : right.negative <;>
    rw [leftSign, rightSign] at same
  · exact same
  · rw [leftEq] at same
    exact absurd (List.cons.inj same).1 leftUnsigned
  · rw [rightEq] at same
    exact absurd (List.cons.inj same).1.symm rightUnsigned
  · exact (List.cons.inj same).2

theorem eq_of_chars_eq {left right : Literal} (same : left.chars = right.chars) :
    left.digits = right.digits ∧ left.scale = right.scale := by
  have unsignedEq := unsignedChars_eq_of_chars_eq same
  have leftEnds := left.fraction_ends_digits endsNumber_nil
  have rightEnds := right.fraction_ends_digits endsNumber_nil
  rw [List.append_nil] at leftEnds rightEnds
  rw [unsignedChars, unsignedChars, List.append_assoc, List.append_assoc] at unsignedEq
  rcases digits_append_inj
      (fun digit digitMem => left.isDigit digit (List.mem_append_left _ digitMem))
      (fun digit digitMem => right.isDigit digit (List.mem_append_left _ digitMem)) leftEnds
      rightEnds unsignedEq with
    ⟨wholeEq, wholeEnded⟩
  rcases fraction_eq_of_chars_eq
      (fun digit digitMem => left.isDigit digit (List.mem_append_right _ digitMem))
      (fun digit digitMem => right.isDigit digit (List.mem_append_right _ digitMem)) wholeEnded
      with
    ⟨fractionEq, exponentEq⟩
  rw [digits, digits, scale, scale, exponent, exponent, wholeEq, fractionEq, exponentEq]
  exact ⟨rfl, rfl⟩

end Literal

/-! ## Significands that keep all digits -/

abbrev Significand.extend (digits : Nat) (digit : Char) : Nat :=
  10 * digits + (digit.toNat - '0'.toNat)

theorem le_foldl_extend (digits : List Char) (value : Nat) :
    value ≤ digits.foldl Significand.extend value := by
  induction digits generalizing value with
  | nil => exact Nat.le_refl _
  | cons digit rest ih =>
      have grown : value ≤ Significand.extend value digit := by
        rw [Significand.extend]
        omega
      exact Nat.le_trans grown (ih _)

theorem grown?_of_fits {digit : Char} {value : Nat} {exponent : Int} {rest : List Char}
    (fits : rest.foldl Significand.extend (Significand.extend value digit) < UInt64.size) :
    Significand.grown? ⟨value, exponent, false⟩ digit = some (Significand.extend value digit) := by
  have nextFits := Nat.lt_of_le_of_lt (le_foldl_extend rest _) fits
  rw [Significand.grown?, if_neg (by simpa [Significand.extend] using nextFits)]

theorem foldl_appendWhole {digits : List Char} {value : Nat} {exponent : Int}
    (fits : digits.foldl Significand.extend value < UInt64.size) :
    digits.foldl Significand.appendWhole ⟨value, exponent, false⟩ =
      ⟨digits.foldl Significand.extend value, exponent, false⟩ := by
  induction digits generalizing value with
  | nil => rfl
  | cons digit rest ih =>
      rw [List.foldl_cons] at fits ⊢
      rw [Significand.appendWhole, grown?_of_fits fits]
      exact ih fits

/-- Digits after the point that fit in all are all taken, and each lowers the power of ten. -/
theorem foldl_appendFraction {digits : List Char} {value : Nat} {exponent : Int}
    (fits : digits.foldl Significand.extend value < UInt64.size) :
    digits.foldl Significand.appendFraction ⟨value, exponent, false⟩ =
      ⟨digits.foldl Significand.extend value, exponent - digits.length, false⟩ := by
  induction digits generalizing value exponent with
  | nil => simp
  | cons digit rest ih =>
      rw [List.foldl_cons] at fits ⊢
      rw [Significand.appendFraction, grown?_of_fits fits]
      simp only
      rw [ih fits, List.length_cons]
      congr 1
      omega

theorem Literal.ofDigits_eq {literal : Literal} (fits : literal.digits < UInt64.size) :
    Significand.ofDigits literal.whole literal.fraction =
      ⟨literal.digits, -literal.fraction.length, false⟩ := by
  rw [Literal.digits, Numeral.ofDigits, List.foldl_append] at fits ⊢
  have wholeFits := Nat.lt_of_le_of_lt (le_foldl_extend _ _) fits
  rw [Significand.ofDigits, Significand.zero, foldl_appendWhole wholeFits]
  simp only
  rw [foldl_appendFraction fits, Int.zero_sub]

end Json

end TikzGlyph
