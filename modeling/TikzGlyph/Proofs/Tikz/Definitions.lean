import Mathlib.Data.List.Nodup
import TikzGlyph.Proofs.Color.NormalForm
import TikzGlyph.Proofs.Palette.Lookup
import TikzGlyph.Proofs.Tikz.History

/-!
# Definitions of colours

The text of a palette is read here as the target language reads it: every line defines a name for
the colour that it spells, and a name ends at its closing brace. A palette writes one line for each
of its colours, in the order of the indices. Reading the lines gives the names of the indices and
the colours back, so the text tells which palette it was written for, and no name is defined twice.
-/

namespace TikzGlyph

namespace Tikz

/-! ## Reading definitions -/

/-- What follows a word at the front of a text. -/
def after? : (word text : List Char) → Option (List Char)
  | [], text => some text
  | _ :: _, [] => none
  | expected :: word, character :: rest =>
      if character = expected then after? word rest else none

/-- What stands between braces at the front of a text, and what follows the closing brace. -/
def braced? : List Char → Option (List Char × List Char)
  | [] => none
  | first :: rest =>
      if first = '\x7b' ∧ '\x7d' ∈ rest then
        some (rest.takeWhile (· != '\x7d'), (rest.dropWhile (· != '\x7d')).tail)
      else none

/-- The name and the colour of a line that defines a colour. -/
def definition? (line : List Char) : Option (String × Color) := do
  let (name, afterName) ← braced? (← after? "\\definecolor".toList line)
  let (model, afterModel) ← braced? afterName
  let (spelling, afterSpelling) ← braced? afterModel
  let color ← (Color.parseHex (String.ofList spelling)).toOption
  if model = "HTML".toList ∧ afterSpelling = [] then some (String.ofList name, color) else none

/-- The parts of a text between its newlines. -/
def lines (text : String) : List (List Char) := text.toList.splitOn '\n'

/-- The names that the lines of a text define, with their colours. -/
def definitions (text : String) : List (String × Color) := (lines text).filterMap definition?

theorem after?_append (word rest : List Char) : after? word (word ++ rest) = some rest := by
  induction word with
  | nil => rfl
  | cons first word ih => simp [after?, ih]

theorem braced?_append {inside : List Char} (openInside : '\x7d' ∉ inside) (rest : List Char) :
    braced? ('\x7b' :: (inside ++ '\x7d' :: rest)) = some (inside, rest) := by
  have apart : ∀ character ∈ inside, (character != '\x7d') = true := by
    intro character characterMem
    apply bne_iff_ne.mpr
    rintro rfl
    exact openInside characterMem
  rw [braced?, if_pos ⟨rfl, by simp⟩, List.takeWhile_append_of_pos apart,
    List.dropWhile_append_of_pos apart]
  simp

theorem colorName_inj {left right : Nat} : colorName left = colorName right ↔ left = right := by
  constructor
  · intro same
    have reprEq : left.repr = right.repr := (String.append_right_inj "c").mp same
    have digitsEq : Nat.toDigits 10 left = Nat.toDigits 10 right := by
      rw [← Nat.toList_repr, ← Nat.toList_repr, reprEq]
    have read : ∀ number, Nat.ofDigitChars 10 (Nat.toDigits 10 number) 0 = number :=
      fun number => Nat.ofDigitChars_toDigits (by decide) (by decide)
    rw [← read left, digitsEq, read right]
  · rintro rfl
    rfl

theorem brace_notMem_colorName (index : Nat) : '\x7d' ∉ (colorName index).toList := by
  change '\x7d' ∉ ("c" ++ index.repr).toList
  rw [String.toList_append, Nat.toList_repr, List.mem_append, not_or]
  refine ⟨by decide, ?_⟩
  intro braceMem
  have digit := Nat.isDigit_of_mem_toDigits (by decide) (by decide) braceMem
  cases digit

theorem brace_notMem_hex (color : Color) : '\x7d' ∉ color.hex.toList := by
  intro braceMem
  rw [Color.toList_hex] at braceMem
  have hex := (Color.isSpelledBy_hexDigits color).allHex '\x7d' braceMem
  revert hex
  decide

theorem toList_define (index : Nat) (color : Color) :
    (directive (.define index color)).toList =
      "\\definecolor".toList ++ '\x7b' :: ((colorName index).toList ++ '\x7d' :: '\x7b' ::
        ("HTML".toList ++ '\x7d' :: '\x7b' :: (color.hex.toList ++ ['\x7d']))) := by
  have startEq : "\\definecolor\x7b".toList = "\\definecolor".toList ++ ['\x7b'] := by decide
  have middleEq : "\x7d\x7bHTML\x7d\x7b".toList =
      '\x7d' :: '\x7b' :: ("HTML".toList ++ ['\x7d', '\x7b']) := by decide
  have endEq : "\x7d".toList = ['\x7d'] := by decide
  change ("\\definecolor\x7b" ++ colorName index ++ "\x7d\x7bHTML\x7d\x7b" ++ color.hex ++
    "\x7d").toList = _
  simp only [String.toList_append, startEq, middleEq, endEq, List.append_assoc,
    List.cons_append, List.nil_append]

theorem directive_define (index : Nat) (color : Color) :
    directive (.define index color) =
      "\\definecolor\x7bc" ++ index.repr ++ "\x7d\x7bHTML\x7d\x7b" ++ color.hex ++ "\x7d" := by
  have startEq : "\\definecolor\x7bc" = "\\definecolor\x7b" ++ "c" := by decide
  rw [startEq, ← append_colorName]
  rfl

/-- The line that is written for a colour defines the name of its index for it. -/
theorem definition?_define (index : Nat) (color : Color) :
    definition? (directive (.define index color)).toList = some (colorName index, color) := by
  have modelOpen : '\x7d' ∉ "HTML".toList := by decide
  rw [toList_define, definition?, after?_append]
  simp only [Option.bind_eq_bind, Option.bind_some, braced?_append (brace_notMem_colorName index),
    braced?_append modelOpen, braced?_append (brace_notMem_hex color), String.ofList_toList,
    Color.parseHex_hex]
  rfl

/-! ## The lines of a palette -/

section Lines

variable {palette : Palette} {text : String}

theorem paletteText_eq_ok_iff :
    paletteText palette = .ok text ↔
      text = "\n".intercalate
        (palette.entries.map fun entry => directive (.define entry.1 entry.2)) := by
  rw [paletteText_eq, Writer.appendCalls_empty, List.map_map, Except.ok.injEq]
  exact eq_comm

theorem lines_eq_of_paletteText (written : paletteText palette = .ok text)
    (notEmpty : palette.colors ≠ []) :
    lines text =
      palette.entries.map fun entry => (directive (.define entry.1 entry.2)).toList := by
  have someEntry : palette.entries ≠ [] := by
    rw [← Palette.map_snd_entries] at notEmpty
    simpa using notEmpty
  rw [paletteText_eq_ok_iff] at written
  rw [lines, written, String.toList_intercalate, List.map_map]
  apply List.splitOn_intercalate
  · intro line lineMem
    rcases List.mem_map.mp lineMem with ⟨entry, _, rfl⟩
    exact oneLine_directive rfl
  · simpa using someEntry

/-- Reading the text of a palette gives its entries back, under the names of the indices. -/
theorem definitions_of_paletteText (written : paletteText palette = .ok text) :
    definitions text = palette.entries.map fun entry => (colorName entry.1, entry.2) := by
  by_cases empty : palette.colors = []
  · have noEntry : palette.entries = [] := by simp [Palette.entries, empty]
    rw [paletteText_eq_ok_iff, noEntry] at written
    rw [written, noEntry]
    rfl
  · rw [definitions, lines_eq_of_paletteText written empty, List.filterMap_map]
    rw [← List.filterMap_eq_map]
    apply List.filterMap_congr
    intro entry _
    exact definition?_define entry.1 entry.2

theorem names_of_paletteText (written : paletteText palette = .ok text) :
    (definitions text).map Prod.fst = (List.range palette.colors.length).map colorName := by
  rw [definitions_of_paletteText written, ← Palette.map_fst_entries, List.map_map, List.map_map]
  rfl

theorem colors_of_paletteText (written : paletteText palette = .ok text) :
    (definitions text).map Prod.snd = palette.colors := by
  rw [definitions_of_paletteText written, ← Palette.map_snd_entries, List.map_map]
  rfl

/-- No name is defined twice. -/
theorem nodup_names_of_paletteText (written : paletteText palette = .ok text) :
    ((definitions text).map Prod.fst).Nodup := by
  rw [names_of_paletteText written]
  apply List.Nodup.map_on
  · intro left _ right _ same
    exact colorName_inj.mp same
  · exact List.nodup_range

theorem mem_definitions_iff (written : paletteText palette = .ok text) {index : Nat}
    {color : Color} :
    (colorName index, color) ∈ definitions text ↔ palette.colors[index]? = some color := by
  rw [definitions_of_paletteText written, ← Palette.mem_entries_iff]
  simp [colorName_inj]

theorem eq_empty_iff_of_paletteText (written : paletteText palette = .ok text) :
    text = "" ↔ palette.colors = [] := by
  constructor
  · rintro rfl
    have noColor := colors_of_paletteText written
    have noDefinition : definitions "" = [] := by decide
    rw [noDefinition] at noColor
    exact noColor.symm
  · intro empty
    have noEntry : palette.entries = [] := by simp [Palette.entries, empty]
    rw [paletteText_eq_ok_iff.mp written, noEntry]
    rfl

/-- The line at an index is the definition of its colour. -/
theorem getElem?_lines_of_paletteText (written : paletteText palette = .ok text) {index : Nat}
    {color : Color} (found : palette.colors[index]? = some color) :
    (lines text)[index]? = some (directive (.define index color)).toList := by
  have notEmpty : palette.colors ≠ [] := by
    intro empty
    simp [empty] at found
  rw [lines_eq_of_paletteText written notEmpty, List.getElem?_map, Palette.getElem?_entries, found]
  rfl

end Lines

/-- A text lists a palette: one line for each colour defines the name of its index. -/
structure ListsPalette (text : String) (palette : Palette) : Prop where
  empty_iff : text = "" ↔ palette.colors = []
  length_lines : palette.colors ≠ [] → (lines text).length = palette.colors.length
  line_eq : ∀ (index : Nat) (color : Color), palette.colors[index]? = some color →
    ∃ spelling, Color.parseHex spelling = .ok color ∧
      (lines text)[index]? = some ("\\definecolor\x7bc" ++ index.repr ++
        "\x7d\x7bHTML\x7d\x7b" ++ spelling ++ "\x7d").toList
  names_nodup : ((definitions text).map Prod.fst).Nodup
  bound_once : ∀ color index, palette.index color = .ok index →
    ((definitions text).map Prod.fst).count (colorName index) = 1 ∧
      ∀ other, (colorName index, other) ∈ definitions text ↔ other = color

theorem listsPalette_of_paletteText {palette : Palette} {text : String}
    (written : paletteText palette = .ok text) : ListsPalette text palette := by
  have namesNodup := nodup_names_of_paletteText written
  refine ⟨eq_empty_iff_of_paletteText written, ?_, ?_, namesNodup, ?_⟩
  · intro notEmpty
    rw [lines_eq_of_paletteText written notEmpty, List.length_map,
      ← List.length_map Prod.snd, Palette.map_snd_entries]
  · intro index color found
    refine ⟨color.hex, Color.parseHex_hex color, ?_⟩
    rw [getElem?_lines_of_paletteText written found, directive_define]
  · intro color index registered
    have found := Palette.index_eq_ok_iff.mp registered
    constructor
    · apply List.count_eq_one_of_mem namesNodup
      exact List.mem_map_of_mem ((mem_definitions_iff written).mpr found)
    · intro other
      rw [mem_definitions_iff written, found, Option.some.injEq]
      exact eq_comm

/-- Every palette is written, as one line for each of its colours, and its text tells which palette
it is. -/
theorem paletteText_determines :
    (∀ palette, ∃ text, paletteText palette = .ok text ∧ ListsPalette text palette) ∧
      ∀ left right, paletteText left = paletteText right ↔ left = right := by
  constructor
  · intro palette
    rcases exists_paletteText palette with ⟨text, written⟩
    exact ⟨text, written, listsPalette_of_paletteText written⟩
  · intro left right
    constructor
    · intro same
      rcases exists_paletteText right with ⟨text, rightWritten⟩
      have leftWritten := same.trans rightWritten
      apply Palette.eq_of_colors_eq
      rw [← colors_of_paletteText leftWritten, colors_of_paletteText rightWritten]
    · rintro rfl
      rfl

end Tikz

end TikzGlyph
