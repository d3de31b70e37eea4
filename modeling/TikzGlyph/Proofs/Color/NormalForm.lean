import TikzGlyph.Color.Json
import TikzGlyph.Proofs.Color.Reading
import TikzGlyph.Proofs.Json.QuotedText

/-!
# The normal form of a colour

Every spelling of a colour has a normal form: its digits in lowercase, those of the short form
doubled. A colour is printed in the normal form of all its spellings, with or without a `#` in front
and with or without the quotes of a JSON string, and every printed colour is read back. So two
spellings are read as one colour exactly if they have one normal form.
-/

namespace TikzGlyph

/-! ## Digits that are printed -/

theorem hexDigit_mem_hexAlphabet (value : Fin 16) : hexDigit value ∈ hexAlphabet := by
  revert value
  decide

theorem hexPlace_hexDigit (value : Fin 16) : hexPlace (hexDigit value) = value.val := by
  revert value
  decide

theorem hexDigit_hexPlace {digit : Char} (hex : digit ∈ hexAlphabet) :
    hexDigit (Fin.ofNat 16 (hexPlace digit)) = digit.toLower := by
  apply of_mem_hexAlphabet _ hex
  decide

theorem hexPlace_lt {digit : Char} (hex : digit ∈ hexAlphabet) : hexPlace digit < 16 := by
  rcases exists_hexValue? hex with ⟨value, _, placeEq⟩
  omega

theorem byteDigits_eq {value : UInt8} {high low : Char} (highHex : high ∈ hexAlphabet)
    (lowHex : low ∈ hexAlphabet) (valueEq : value.toNat = 16 * hexPlace high + hexPlace low) :
    byteDigits value = [high.toLower, low.toLower] := by
  have lowLt := hexPlace_lt lowHex
  have highPart : value.toNat / 16 = hexPlace high := by omega
  have lowPart : Fin.ofNat 16 value.toNat = Fin.ofNat 16 (hexPlace low) := by
    apply Fin.ext
    simp only [Fin.val_ofNat]
    omega
  rw [byteDigits, highPart, lowPart, hexDigit_hexPlace highHex, hexDigit_hexPlace lowHex]

theorem exists_byteDigits_eq (value : UInt8) :
    ∃ high low, byteDigits value = [high, low] ∧ high ∈ hexAlphabet ∧ low ∈ hexAlphabet ∧
      value.toNat = 16 * hexPlace high + hexPlace low := by
  have small : value.toNat < 256 := value.toNat_lt
  refine ⟨_, _, rfl, hexDigit_mem_hexAlphabet _, hexDigit_mem_hexAlphabet _, ?_⟩
  simp only [hexPlace_hexDigit, Fin.val_ofNat]
  omega

namespace Color

section

variable {color : Color} {digits : List Char} {text normal : String}

/-- The digits of a colour are printed in lowercase, six for three. -/
theorem IsSpelledBy.hexDigits_eq (spelled : color.IsSpelledBy digits) :
    color.hexDigits = (doubled digits).map Char.toLower := by
  rcases spelled with ⟨redHigh, redLow, greenHigh, greenLow, blueHigh, blueLow, six, hex,
    red, green, blue⟩
  have sixHex := hex.doubled
  rw [six] at sixHex ⊢
  simp only [AllHex, List.forall_mem_cons] at sixHex
  rcases sixHex with ⟨redHighHex, redLowHex, greenHighHex, greenLowHex, blueHighHex,
    blueLowHex, _⟩
  rw [hexDigits, byteDigits_eq redHighHex redLowHex red,
    byteDigits_eq greenHighHex greenLowHex green, byteDigits_eq blueHighHex blueLowHex blue]
  rfl

/-- A colour is spelled by the digits that are printed for it. -/
theorem isSpelledBy_hexDigits (color : Color) : color.IsSpelledBy color.hexDigits := by
  rcases exists_byteDigits_eq color.red with ⟨r, r', red, rHex, r'Hex, redEq⟩
  rcases exists_byteDigits_eq color.green with ⟨g, g', green, gHex, g'Hex, greenEq⟩
  rcases exists_byteDigits_eq color.blue with ⟨b, b', blue, bHex, b'Hex, blueEq⟩
  have six : color.hexDigits = [r, r', g, g', b, b'] := by
    rw [hexDigits, red, green, blue]
    rfl
  refine ⟨r, r', g, g', b, b', ?_, ?_, redEq, greenEq, blueEq⟩
  · rw [six]
    rfl
  · rw [six]
    simp [AllHex, rHex, r'Hex, gHex, g'Hex, bHex, b'Hex]

/-! ## Printed colours are read back -/

theorem isBlank_of_mem_hexAlphabet {digit : Char} (hex : digit ∈ hexAlphabet) :
    isBlank digit = false := by
  apply of_mem_hexAlphabet _ hex
  decide

theorem hexPart_of_allHex (hex : AllHex digits) : hexPart digits = digits := by
  symm
  apply isSpelling_iff.mp
  refine ⟨digits, ?_, Or.inr ⟨rfl, ?_⟩⟩
  · apply isTrimmed_self
    intro digit digitMem
    exact isBlank_of_mem_hexAlphabet (hex digit digitMem)
  · intro first
    exact absurd (hex '#' (List.mem_of_mem_head? first)) (by decide)

theorem hexPart_cons_of_allHex (hex : AllHex digits) : hexPart ('#' :: digits) = digits := by
  symm
  apply isSpelling_iff.mp
  refine ⟨'#' :: digits, ?_, Or.inl rfl⟩
  apply isTrimmed_self
  rw [List.forall_mem_cons]
  refine ⟨by decide, ?_⟩
  intro digit digitMem
  exact isBlank_of_mem_hexAlphabet (hex digit digitMem)

theorem toList_hex (color : Color) : color.hex.toList = color.hexDigits := String.toList_ofList

theorem parseHex_hex (color : Color) : parseHex color.hex = .ok color := by
  have spelled := isSpelledBy_hexDigits color
  rw [parseHex_eq_ok_iff, toList_hex, hexPart_of_allHex spelled.allHex]
  exact spelled

theorem parseHex_text (color : Color) : parseHex color.text = .ok color := by
  have spelled := isSpelledBy_hexDigits color
  have marked : color.text.toList = '#' :: color.hexDigits := by
    rw [Color.text, String.toList_append, toList_hex]
    rfl
  rw [parseHex_eq_ok_iff, marked, hexPart_cons_of_allHex spelled.allHex]
  exact spelled

/-- A JSON string is read like the text in it. -/
theorem ofJson_quote (text : String) :
    ofJson (Json.quote text) = (parseHex text).mapError .format := by
  have oneToken := Json.tokens_append_quote text []
  rw [List.append_nil, Json.tokens] at oneToken
  have stringRead : Json.Reader.string [.string (some text)] = .ok ⟨text, [], by simp⟩ := rfl
  rw [ofJson, oneToken, stringRead]
  cases read : parseHex text <;>
    simp only [mapError_ok, mapError_error, bind, Except.bind, pure, Except.pure, read, if_true]

/-! ## Normal forms -/

/-- The normal form of a spelling: its digits in lowercase, six for three. -/
def IsNormalForm (text normal : String) : Prop :=
  ∃ digits, IsSpelling text.toList digits ∧ normal.toList = (doubled digits).map Char.toLower

/-- A colour is printed in the normal form of its spellings. -/
theorem isNormalForm_iff (read : parseHex text = .ok color) :
    IsNormalForm text normal ↔ normal = color.hex := by
  have printed := (parseHex_eq_ok_iff.mp read).hexDigits_eq
  simp only [IsNormalForm, isSpelling_iff, exists_eq_left]
  rw [← printed, ← toList_hex, String.toList_inj]

theorem hex_inj {left right : Color} : left.hex = right.hex ↔ left = right := by
  constructor
  · intro same
    have leftRead := parseHex_hex left
    rw [same, parseHex_hex right] at leftRead
    exact (Except.ok.inj leftRead).symm
  · rintro rfl
    rfl

end

/-- A colour is printed in the normal form of its spellings, spellings of one colour are those with
one normal form, and a printed colour is read back however it is printed. -/
theorem normal_forms :
    (∀ text color, parseHex text = .ok color →
      ∀ normal, IsNormalForm text normal ↔ normal = color.hex) ∧
    (∀ left right leftColor rightColor,
      parseHex left = .ok leftColor → parseHex right = .ok rightColor →
      ∀ leftNormal rightNormal, IsNormalForm left leftNormal → IsNormalForm right rightNormal →
        (parseHex left = parseHex right ↔ leftNormal = rightNormal)) ∧
    (∀ color : Color, parseHex color.hex = .ok color ∧ parseHex color.text = .ok color ∧
      ofJson color.toJson = .ok color) ∧
    ∀ text, ((parseHex text).map hex).bind (fun normal => (parseHex normal).map hex) =
      (parseHex text).map hex := by
  refine ⟨?_, ?_, ?_, ?_⟩
  · intro text color read normal
    exact isNormalForm_iff read
  · intro left right leftColor rightColor leftRead rightRead leftNormal rightNormal
      leftForm rightForm
    rw [isNormalForm_iff leftRead] at leftForm
    rw [isNormalForm_iff rightRead] at rightForm
    rw [leftForm, rightForm, hex_inj, leftRead, rightRead, Except.ok.injEq]
  · intro color
    refine ⟨parseHex_hex color, parseHex_text color, ?_⟩
    rw [toJson, ofJson_quote, parseHex_text]
    rfl
  · intro text
    cases read : parseHex text with
    | error cause => rfl
    | ok color =>
        simp only [Except.map, Except.bind, parseHex_hex]

/-- Two spellings of one colour, a short one between blanks and a long one. -/
theorem normal_forms_short :
    IsNormalForm "\t#AbC " "aabbcc" ∧ parseHex "\t#AbC " = parseHex "aAbBcC" := by
  have shortRead : parseHex "\t#AbC " = .ok ⟨0xaa, 0xbb, 0xcc⟩ := by decide
  have longRead : parseHex "aAbBcC" = .ok ⟨0xaa, 0xbb, 0xcc⟩ := by decide
  have shortNormal := (normal_forms.1 _ _ shortRead "aabbcc").mpr (by decide)
  have longNormal := (normal_forms.1 _ _ longRead "aabbcc").mpr (by decide)
  exact ⟨shortNormal, (normal_forms.2.1 _ _ _ _ shortRead longRead _ _ shortNormal
    longNormal).mpr rfl⟩

end Color

end TikzGlyph
