import TikzGlyph.Color
import TikzGlyph.Proofs.Result
import TikzGlyph.Proofs.Text.Blank

/-!
# Texts that are colours

The digits of a spelling are what is left of it without the blanks around it and without one `#` in
front. They alone decide whether the spelling is a colour: three or six hexadecimal digits are,
another character makes it a digit fault whatever the number of characters, and another number of
digits makes it a length fault. Once the digits have been counted and checked no component can fail
any more. A blank fill is no colour, and every other fill is read as one.
-/

namespace TikzGlyph

/-! ## Hexadecimal digits -/

/-- The hexadecimal digits in either case. -/
def hexAlphabet : List Char := "0123456789abcdefABCDEF".toList

/-- The value of a hexadecimal digit, which is its place among the lowercase ones. -/
def hexPlace (digit : Char) : Nat := "0123456789abcdef".toList.idxOf digit.toLower

section Digits

variable {digit high low : Char}

/-- What holds of every hexadecimal digit can be checked over the alphabet. -/
theorem of_mem_hexAlphabet {holds : Char → Prop} [DecidablePred holds]
    (checked : hexAlphabet.all (fun member => decide (holds member)) = true)
    (hex : digit ∈ hexAlphabet) : holds digit :=
  of_decide_eq_true (List.all_eq_true.mp checked digit hex)

theorem toNat_lt_of_mem_hexAlphabet (hex : digit ∈ hexAlphabet) : digit.toNat < 128 := by
  apply of_mem_hexAlphabet _ hex
  decide

theorem hexValue?_map_val (character : Char) :
    (hexValue? character).map Fin.val =
      if character ∈ hexAlphabet then some (hexPlace character) else none := by
  by_cases small : character.toNat < 128
  · have listed : ∀ code < 128, (hexValue? (Char.ofNat code)).map Fin.val =
        if Char.ofNat code ∈ hexAlphabet then some (hexPlace (Char.ofNat code)) else none := by
      decide +kernel
    have read := listed character.toNat small
    rwa [Char.ofNat_toNat] at read
  · have absent : character ∉ hexAlphabet := fun hex => small (toNat_lt_of_mem_hexAlphabet hex)
    have noValue : hexValue? character = none := by
      simp only [hexValue?, Char.reduceToNat]
      rw [if_neg (by omega), if_neg (by omega), if_neg (by omega)]
    rw [if_neg absent, noValue]
    rfl

theorem isHexDigit_iff : isHexDigit digit = true ↔ digit ∈ hexAlphabet := by
  have read := hexValue?_map_val digit
  by_cases hex : digit ∈ hexAlphabet <;> cases value : hexValue? digit <;>
    simp_all [isHexDigit]

theorem exists_hexValue? (hex : digit ∈ hexAlphabet) :
    ∃ value : Fin 16, hexValue? digit = some value ∧ value.val = hexPlace digit := by
  have read := hexValue?_map_val digit
  rw [if_pos hex, Option.map_eq_some_iff] at read
  exact read

theorem utf8Size_of_mem_hexAlphabet (hex : digit ∈ hexAlphabet) : digit.utf8Size = 1 := by
  apply of_mem_hexAlphabet _ hex
  decide

/-- Two digits denote a byte. -/
theorem exists_hexByte? (highHex : high ∈ hexAlphabet) (lowHex : low ∈ hexAlphabet) :
    ∃ value, hexByte? [high, low] = some value ∧
      value.toNat = 16 * hexPlace high + hexPlace low := by
  rcases exists_hexValue? highHex with ⟨highValue, highRead, highPlace⟩
  rcases exists_hexValue? lowHex with ⟨lowValue, lowRead, lowPlace⟩
  have noSign : high ≠ '+' := by
    rintro rfl
    revert highHex
    decide
  have numberEq : hexNumber? [high, low] = some (16 * highValue.val + lowValue.val) := by
    simp [hexNumber?, highRead, lowRead]
  have fits : 16 * highValue.val + lowValue.val < UInt8.size := by
    simp only [UInt8.size]
    omega
  refine ⟨UInt8.ofNat (16 * highValue.val + lowValue.val), ?_, ?_⟩
  · simp only [hexByte?]
    split
    · rename_i signed
      cases signed
      exact absurd rfl noSign
    · rw [if_neg (List.cons_ne_nil _ _), numberEq, Option.bind_some, if_pos fits]
  · rw [UInt8.toNat_ofNat_of_lt' fits, highPlace, lowPlace]

end Digits

/-! ## Texts of one byte for each character -/

section SingleBytes

variable {text : List Char} (single : ∀ character ∈ text, character.utf8Size = 1)

include single

theorem byteLength_of_single : byteLength text = text.length := by
  induction text with
  | nil => rfl
  | cons first rest ih =>
      rw [List.forall_mem_cons] at single
      rw [byteLength_cons, single.1, ih single.2, List.length_cons, Nat.add_comm]

theorem byteLength_take_of_single {count : Nat} (inside : count ≤ text.length) :
    byteLength (text.take count) = count := by
  have partSingle : ∀ character ∈ text.take count, character.utf8Size = 1 :=
    fun character characterMem => single character (List.mem_of_mem_take characterMem)
  rw [byteLength_of_single partSingle, List.length_take, Nat.min_eq_left inside]

theorem dropBytes?_of_single {count : Nat} (inside : count ≤ text.length) :
    dropBytes? count text = some (text.drop count) := by
  have cut := dropBytes?_append (text.take count) (text.drop count)
  rwa [byteLength_take_of_single single inside, List.take_append_drop] at cut

theorem takeBytes?_of_single {count : Nat} (inside : count ≤ text.length) :
    takeBytes? count text = some (text.take count) := by
  have cut := takeBytes?_append (text.take count) (text.drop count)
  rwa [byteLength_take_of_single single inside, List.take_append_drop] at cut

end SingleBytes

namespace Color

/-! ## The digits of a spelling -/

/-- The digits of a spelling: what is left without the blanks around it and one `#` in front. -/
def IsSpelling (text digits : List Char) : Prop :=
  ∃ trimmed, IsTrimmed text trimmed ∧
    (trimmed = '#' :: digits ∨ trimmed = digits ∧ digits.head? ≠ some '#')

theorem isSpelling_iff {text digits : List Char} :
    IsSpelling text digits ↔ digits = hexPart text := by
  simp only [IsSpelling, isTrimmed_iff, exists_eq_left, hexPart]
  split
  · rename_i rest marked
    rw [marked]
    constructor
    · rintro (same | ⟨rfl, unmarked⟩)
      · exact (List.cons.inj same).2.symm
      · exact absurd rfl unmarked
    · rintro rfl
      exact Or.inl rfl
  · rename_i unmarked
    constructor
    · rintro (marked | ⟨same, _⟩)
      · exact absurd marked (unmarked digits)
      · exact same.symm
    · rintro rfl
      refine Or.inr ⟨rfl, ?_⟩
      intro first
      rcases List.head?_eq_some_iff.mp first with ⟨rest, marked⟩
      exact unmarked rest marked

/-- Six digits for three, each of them doubled. -/
def doubled (digits : List Char) : List Char :=
  if digits.length = 3 then digits.flatMap fun digit => [digit, digit] else digits

/-- All digits are hexadecimal. -/
def AllHex (digits : List Char) : Prop := ∀ digit ∈ digits, digit ∈ hexAlphabet

section Digits

variable {text : String} {digits : List Char}

theorem all_isHexDigit_iff : digits.all isHexDigit = true ↔ AllHex digits := by
  simp only [List.all_eq_true, isHexDigit_iff, AllHex]

theorem AllHex.single (hex : AllHex digits) : ∀ digit ∈ digits, digit.utf8Size = 1 :=
  fun digit digitMem => utf8Size_of_mem_hexAlphabet (hex digit digitMem)

theorem AllHex.doubled (hex : AllHex digits) : AllHex (doubled digits) := by
  unfold Color.doubled
  split
  · intro digit digitMem
    rcases List.mem_flatMap.mp digitMem with ⟨source, sourceMem, copyMem⟩
    have same : digit = source := by simpa using copyMem
    exact same ▸ hex source sourceMem
  · exact hex

/-- Three or six digits become six. -/
theorem exists_doubled_eq (counted : digits.length = 3 ∨ digits.length = 6) :
    ∃ redHigh redLow greenHigh greenLow blueHigh blueLow,
      doubled digits = [redHigh, redLow, greenHigh, greenLow, blueHigh, blueLow] := by
  rcases counted with three | six
  · match digits, three with
    | [red, green, blue], _ => exact ⟨red, red, green, green, blue, blue, rfl⟩
  · match digits, six with
    | [redHigh, redLow, greenHigh, greenLow, blueHigh, blueLow], _ =>
      exact ⟨redHigh, redLow, greenHigh, greenLow, blueHigh, blueLow, rfl⟩

/-- The digits are six, or one of them is no digit, or there are more or fewer of them. -/
theorem sixDigits_cases (text : String) :
    (AllHex (hexPart text.toList) ∧
        ((hexPart text.toList).length = 3 ∨ (hexPart text.toList).length = 6) ∧
        sixDigits text = .ok (doubled (hexPart text.toList))) ∨
      (¬AllHex (hexPart text.toList) ∧ sixDigits text = .error (.digit text)) ∨
      (AllHex (hexPart text.toList) ∧ (hexPart text.toList).length ≠ 3 ∧
        (hexPart text.toList).length ≠ 6 ∧
        sixDigits text = .error (.length text (hexPart text.toList).length)) := by
  by_cases hex : AllHex (hexPart text.toList)
  · have checked := all_isHexDigit_iff.mpr hex
    have counted := byteLength_of_single hex.single
    by_cases three : (hexPart text.toList).length = 3
    · left
      refine ⟨hex, Or.inl three, ?_⟩
      simp [sixDigits, checked, counted, three, doubled]
    · by_cases six : (hexPart text.toList).length = 6
      · left
        refine ⟨hex, Or.inr six, ?_⟩
        simp [sixDigits, checked, counted, six, doubled]
      · right
        right
        refine ⟨hex, three, six, ?_⟩
        simp [sixDigits, checked, counted]
  · right
    left
    refine ⟨hex, ?_⟩
    rw [sixDigits, if_neg (fun checked => hex (all_isHexDigit_iff.mp checked))]

end Digits

/-! ## Components -/

/-- The components of a colour are the bytes that six digits denote in pairs, three digits being
doubled first. -/
def IsSpelledBy (color : Color) (digits : List Char) : Prop :=
  ∃ redHigh redLow greenHigh greenLow blueHigh blueLow,
    doubled digits = [redHigh, redLow, greenHigh, greenLow, blueHigh, blueLow] ∧
      AllHex digits ∧
      color.red.toNat = 16 * hexPlace redHigh + hexPlace redLow ∧
      color.green.toNat = 16 * hexPlace greenHigh + hexPlace greenLow ∧
      color.blue.toNat = 16 * hexPlace blueHigh + hexPlace blueLow

theorem IsSpelledBy.eq {color other : Color} {digits : List Char}
    (spelled : color.IsSpelledBy digits) (otherSpelled : other.IsSpelledBy digits) :
    color = other := by
  rcases spelled with ⟨_, _, _, _, _, _, six, _, red, green, blue⟩
  rcases otherSpelled with ⟨_, _, _, _, _, _, otherSix, _, otherRed, otherGreen, otherBlue⟩
  rw [six] at otherSix
  cases otherSix
  have redEq := UInt8.toNat_inj.mp (red.trans otherRed.symm)
  have greenEq := UInt8.toNat_inj.mp (green.trans otherGreen.symm)
  have blueEq := UInt8.toNat_inj.mp (blue.trans otherBlue.symm)
  cases color
  cases other
  simp_all

theorem IsSpelledBy.allHex {color : Color} {digits : List Char}
    (spelled : color.IsSpelledBy digits) : AllHex digits := by
  rcases spelled with ⟨_, _, _, _, _, _, _, hex, _⟩
  exact hex

theorem IsSpelledBy.counted {color : Color} {digits : List Char}
    (spelled : color.IsSpelledBy digits) : digits.length = 3 ∨ digits.length = 6 := by
  rcases spelled with ⟨_, _, _, _, _, _, six, _⟩
  unfold doubled at six
  split at six
  · exact Or.inl ‹_›
  · exact Or.inr (congrArg List.length six)

/-- A pair of digits inside others is read as the byte that it denotes. -/
theorem exists_component (text : String) (before : List Char) (high low : Char)
    (after : List Char) (hex : AllHex (before ++ high :: low :: after)) :
    ∃ value, component text (before ++ high :: low :: after) before.length = .ok value ∧
      value.toNat = 16 * hexPlace high + hexPlace low := by
  rcases exists_hexByte? (hex high (by simp)) (hex low (by simp)) with ⟨value, read, valueEq⟩
  have restHex : AllHex (high :: low :: after) :=
    fun digit digitMem => hex digit (List.mem_append_right before digitMem)
  have dropped : dropBytes? before.length (before ++ high :: low :: after) =
      some (high :: low :: after) := by
    rw [dropBytes?_of_single hex.single (by simp), List.drop_left]
  have taken : takeBytes? 2 (high :: low :: after) = some [high, low] := by
    rw [takeBytes?_of_single restHex.single (by simp)]
    rfl
  refine ⟨value, ?_, valueEq⟩
  rw [component, dropped, Option.bind_some, taken, Option.bind_some, read]

/-- No component of six digits fails. -/
theorem exists_components {digits : List Char} (hex : AllHex digits)
    (counted : digits.length = 3 ∨ digits.length = 6) (text : String) :
    ∃ color : Color, color.IsSpelledBy digits ∧
      component text (doubled digits) 0 = .ok color.red ∧
      component text (doubled digits) 2 = .ok color.green ∧
      component text (doubled digits) 4 = .ok color.blue := by
  rcases exists_doubled_eq counted with ⟨r, r', g, g', b, b', six⟩
  have sixHex := hex.doubled
  rw [six] at sixHex ⊢
  rcases exists_component text [] r r' [g, g', b, b'] sixHex with ⟨red, redRead, redEq⟩
  rcases exists_component text [r, r'] g g' [b, b'] sixHex with ⟨green, greenRead, greenEq⟩
  rcases exists_component text [r, r', g, g'] b b' [] sixHex with ⟨blue, blueRead, blueEq⟩
  exact ⟨⟨red, green, blue⟩, ⟨r, r', g, g', b, b', six, hex, redEq, greenEq, blueEq⟩,
    redRead, greenRead, blueRead⟩

/-! ## Reading -/

section Reading

variable {text : String} {color : Color}

/-- A text is read as the colour that its digits spell, or it fails while the digits are checked and
counted. -/
theorem parseHex_cases (text : String) :
    (∃ color, color.IsSpelledBy (hexPart text.toList) ∧ parseHex text = .ok color) ∨
      (¬AllHex (hexPart text.toList) ∧ parseHex text = .error (.digit text)) ∨
      (AllHex (hexPart text.toList) ∧ (hexPart text.toList).length ≠ 3 ∧
        (hexPart text.toList).length ≠ 6 ∧
        parseHex text = .error (.length text (hexPart text.toList).length)) := by
  rcases sixDigits_cases text with ⟨hex, counted, found⟩ | ⟨notHex, failed⟩ |
    ⟨hex, notThree, notSix, failed⟩
  · rcases exists_components hex counted text with ⟨color, spelled, red, green, blue⟩
    left
    refine ⟨color, spelled, ?_⟩
    simp [parseHex, found, red, green, blue, bind, Except.bind, pure, Except.pure]
  · right
    left
    refine ⟨notHex, ?_⟩
    simp [parseHex, failed, bind, Except.bind]
  · right
    right
    refine ⟨hex, notThree, notSix, ?_⟩
    simp [parseHex, failed, bind, Except.bind]

theorem parseHex_eq_ok_iff :
    parseHex text = .ok color ↔ color.IsSpelledBy (hexPart text.toList) := by
  rcases parseHex_cases text with ⟨other, otherSpelled, read⟩ | ⟨notHex, failed⟩ |
    ⟨_, notThree, notSix, failed⟩
  · rw [read]
    constructor
    · rintro ⟨⟩
      exact otherSpelled
    · intro spelled
      rw [spelled.eq otherSpelled]
  · rw [failed]
    apply iff_of_false
    · rintro ⟨⟩
    · intro spelled
      exact notHex spelled.allHex
  · rw [failed]
    apply iff_of_false
    · rintro ⟨⟩
    · intro spelled
      exact spelled.counted.elim notThree notSix

theorem parseHex_of_blank (blank : text.toList.all isBlank = true) :
    (parseHex text).toOption = none := by
  have trimmed : trimBlank text.toList = [] :=
    trimBlank_eq_nil_iff.mpr (List.all_eq_true.mp blank)
  have noDigit : hexPart text.toList = [] := by
    rw [hexPart, trimmed]
  cases read : parseHex text with
  | error cause => rfl
  | ok color =>
      have counted := (parseHex_eq_ok_iff.mp read).counted
      simp [noDigit] at counted

theorem parseFill_some (text : String) :
    parseFill (some text) =
      if text.toList.all isBlank then .ok none else (parseHex text).map some := by
  rw [parseFill]
  by_cases blank : text.toList.all isBlank = true
  · rw [if_pos (trimBlank_eq_nil_iff.mpr (List.all_eq_true.mp blank)), if_pos blank]
  · have notTrimmed : trimBlank text.toList ≠ [] := fun trimmed =>
      blank (List.all_eq_true.mpr (trimBlank_eq_nil_iff.mp trimmed))
    rw [if_neg notTrimmed, if_neg blank]

theorem exists_parseHex_iff (text : String) :
    (∃ color, parseHex text = .ok color) ↔ AllHex (hexPart text.toList) ∧
      ((hexPart text.toList).length = 3 ∨ (hexPart text.toList).length = 6) := by
  rcases parseHex_cases text with ⟨color, spelled, read⟩ | ⟨notHex, failed⟩ |
    ⟨_, notThree, notSix, failed⟩
  · simp [read, spelled.allHex, spelled.counted]
  · simp [failed, notHex]
  · simp [failed, notThree, notSix]

theorem parseHex_eq_digit_iff {quoted : String} :
    parseHex text = .error (.digit quoted) ↔ quoted = text ∧ ¬AllHex (hexPart text.toList) := by
  rcases parseHex_cases text with ⟨color, spelled, read⟩ | ⟨notHex, failed⟩ | ⟨hex, _, _, failed⟩
  · simp [read, spelled.allHex]
  · simp [failed, notHex, eq_comm]
  · simp [failed, hex]

theorem parseHex_eq_length_iff {quoted : String} {count : Nat} :
    parseHex text = .error (.length quoted count) ↔
      quoted = text ∧ AllHex (hexPart text.toList) ∧ (hexPart text.toList).length = count ∧
        count ≠ 3 ∧ count ≠ 6 := by
  rcases parseHex_cases text with ⟨color, spelled, read⟩ | ⟨notHex, failed⟩ |
    ⟨hex, notThree, notSix, failed⟩
  · have counted := spelled.counted
    simp only [read, reduceCtorEq, false_iff]
    omega
  · simp [failed, notHex]
  · rw [failed]
    constructor
    · rintro ⟨⟩
      exact ⟨rfl, hex, rfl, notThree, notSix⟩
    · rintro ⟨rfl, _, rfl, _⟩
      rfl

/-- Digits that were checked and counted have all their components. -/
theorem exists_component_of_sixDigits {six : List Char} (found : sixDigits text = .ok six)
    {start : Nat} (startMem : start ∈ [0, 2, 4]) :
    ∃ value, component text six start = .ok value := by
  rcases sixDigits_cases text with ⟨hex, counted, doubledEq⟩ | ⟨_, failed⟩ | ⟨_, _, _, failed⟩
  · rw [found] at doubledEq
    cases doubledEq
    rcases exists_components hex counted text with ⟨color, _, red, green, blue⟩
    simp only [List.mem_cons, List.not_mem_nil, or_false] at startMem
    rcases startMem with rfl | rfl | rfl
    · exact ⟨color.red, red⟩
    · exact ⟨color.green, green⟩
    · exact ⟨color.blue, blue⟩
  · rw [found] at failed
    cases failed
  · rw [found] at failed
    cases failed

theorem parseFill_eq_none_iff :
    parseFill (some text) = .ok none ↔ text.toList.all isBlank = true := by
  rw [parseFill_some]
  split
  · simp [*]
  · cases parseHex text <;> simp [Except.map, *]

end Reading

/-- What becomes of a text that is read as a colour and as a fill, told by the digits of its
spelling. -/
structure ReadsExactly (text : String) (digits : List Char) : Prop where
  accepted_iff : (∃ color, parseHex text = .ok color) ↔
    AllHex digits ∧ (digits.length = 3 ∨ digits.length = 6)
  color_iff : ∀ color, parseHex text = .ok color ↔ color.IsSpelledBy digits
  digit_iff : ∀ quoted, parseHex text = .error (.digit quoted) ↔
    quoted = text ∧ ∃ digit ∈ digits, digit ∉ hexAlphabet
  length_iff : ∀ quoted count, parseHex text = .error (.length quoted count) ↔
    quoted = text ∧ AllHex digits ∧ digits.length = count ∧ count ≠ 3 ∧ count ≠ 6
  /-- The components are looked at only when none of them can fail. -/
  component_ok : ∀ six start, sixDigits text = .ok six → start ∈ [0, 2, 4] →
    ∃ value, component text six start = .ok value
  blank_iff : parseFill (some text) = .ok none ↔
    ∀ character ∈ text.toList, isBlank character = true
  fill_eq : (∃ character ∈ text.toList, isBlank character = false) →
    parseFill (some text) = (parseHex text).map some

/-- A text is a colour exactly if it is spelled with three or six hexadecimal digits, and its
components are the bytes that these denote. Another character makes it a digit fault and another
number of digits a length fault, each of which quotes the whole text. -/
theorem exists_readsExactly (text : String) :
    ∃ digits, (∀ other, IsSpelling text.toList other ↔ other = digits) ∧
      ReadsExactly text digits := by
  refine ⟨hexPart text.toList, fun other => isSpelling_iff, ?_⟩
  refine ⟨exists_parseHex_iff text, fun color => parseHex_eq_ok_iff, ?_,
    fun quoted count => parseHex_eq_length_iff, ?_, ?_, ?_⟩
  · intro quoted
    rw [parseHex_eq_digit_iff]
    simp [AllHex]
  · intro six start found startMem
    exact exists_component_of_sixDigits found startMem
  · rw [parseFill_eq_none_iff, List.all_eq_true]
  · rintro ⟨character, characterMem, plain⟩
    have notBlank : ¬text.toList.all isBlank = true := by
      intro blank
      rw [List.all_eq_true.mp blank character characterMem] at plain
      cases plain
    rw [parseFill_some, if_neg notBlank]

end Color

end TikzGlyph
