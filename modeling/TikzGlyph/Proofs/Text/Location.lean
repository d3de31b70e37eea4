import Mathlib.Data.List.DropRight
import TikzGlyph.Location
import TikzGlyph.Text.ByteLength

/-!
# Places in a text

The place of an offset at which a character starts is the one that a walk over the text before it
ends at: its line is told by the newlines there, its column by the characters since the last one. A
longer text ends at a later place. No two such offsets of a text therefore share a place, and only
the end of a text is at the place that offsets within characters fall back to.
-/

namespace TikzGlyph

/-! ## The last line of a text -/

section LastLine

variable {text before after : List Char}

theorem regular_of_mem_reverse (absent : '\n' ∉ text) :
    ∀ character ∈ text.reverse, decide (character ≠ '\n') = true := by
  intro character characterMem
  rw [List.mem_reverse] at characterMem
  exact decide_eq_true fun newline => absent (newline ▸ characterMem)

theorem lastNewline?_of_notMem (absent : '\n' ∉ text) : lastNewline? text = none := by
  rw [lastNewline?, List.dropWhile_eq_nil_iff.mpr (regular_of_mem_reverse absent)]

theorem lastNewline?_append (absent : '\n' ∉ after) :
    lastNewline? (before ++ '\n' :: after) = some (byteLength before) := by
  have reverseEq :
      (before ++ '\n' :: after).reverse = after.reverse ++ '\n' :: before.reverse := by simp
  rw [lastNewline?, reverseEq, List.dropWhile_append_of_pos (regular_of_mem_reverse absent)]
  change some (byteLength before.reverse.reverse) = some (byteLength before)
  rw [List.reverse_reverse]

theorem lastLine_of_notMem (absent : '\n' ∉ text) : lastLine text = text := by
  rw [lastLine, lastNewline?_of_notMem absent]

/-- The text after a newline can always be cut off: a newline takes one byte. -/
theorem lastLine_append (absent : '\n' ∉ after) : lastLine (before ++ '\n' :: after) = after := by
  have behindNewline : byteLength before + 1 = byteLength (before ++ ['\n']) := by
    rw [byteLength_append]
    rfl
  have textEq : before ++ '\n' :: after = (before ++ ['\n']) ++ after := by simp
  rw [lastLine, lastNewline?_append absent]
  simp only [behindNewline]
  rw [textEq, dropBytes?_append, Option.getD_some]

/-- A text has no newline, or a last one. -/
theorem newline_notMem_or_exists_last (text : List Char) :
    '\n' ∉ text ∨ ∃ before after, text = before ++ '\n' :: after ∧ '\n' ∉ after := by
  by_cases newlineMem : '\n' ∈ text
  · right
    rcases List.eq_append_cons_of_mem (List.mem_reverse.mpr newlineMem) with
      ⟨after, before, reverseEq, absent⟩
    refine ⟨before.reverse, after.reverse, ?_, by simpa using absent⟩
    rw [← text.reverse_reverse, reverseEq]
    simp
  · exact Or.inl newlineMem

theorem lastLine_concat (text : List Char) (last : Char) :
    lastLine (text ++ [last]) = if last = '\n' then [] else lastLine text ++ [last] := by
  split
  · next newline =>
      subst newline
      exact lastLine_append List.not_mem_nil
  · next regular =>
      have lastAbsent : '\n' ∉ [last] := by simpa using Ne.symm regular
      rcases newline_notMem_or_exists_last text with absent | ⟨before, after, rfl, absent⟩
      · have bothAbsent : '\n' ∉ text ++ [last] := List.not_mem_append absent lastAbsent
        rw [lastLine_of_notMem bothAbsent, lastLine_of_notMem absent]
      · have bothAbsent : '\n' ∉ after ++ [last] := List.not_mem_append absent lastAbsent
        rw [List.append_assoc, List.cons_append, lastLine_append bothAbsent, lastLine_append absent]

/-- The search for the last newline and the cut after it leave the characters at the end of a text
that are not newlines. -/
theorem lastLine_eq_rtakeWhile (text : List Char) :
    lastLine text = text.rtakeWhile fun character => character ≠ '\n' := by
  induction text using List.reverseRecOn with
  | nil => rfl
  | append_singleton text last ih =>
      rw [lastLine_concat, List.rtakeWhile_concat, ih]
      by_cases newline : last = '\n' <;> simp [newline]

end LastLine

namespace Location

/-- The place after a character that stands at this one. -/
def after (location : Location) (character : Char) : Location :=
  if character = '\n' then ⟨location.line + 1, 1⟩ else ⟨location.line, location.column + 1⟩

/-- The place where a text ends that starts at this one. -/
def afterText (location : Location) (text : List Char) : Location :=
  text.foldl after location

variable {left middle right location : Location} {text before after : List Char} {offset : Nat}

/-- Places are ordered by their lines, and on one line by their columns. -/
instance : LT Location :=
  ⟨fun left right =>
    left.line < right.line ∨ left.line = right.line ∧ left.column < right.column⟩

theorem lt_iff :
    left < right ↔ left.line < right.line ∨ left.line = right.line ∧ left.column < right.column :=
  Iff.rfl

theorem ne_of_lt (earlier : left < right) : left ≠ right := by
  rintro rfl
  rw [lt_iff] at earlier
  omega

theorem lt_trans (earlier : left < middle) (later : middle < right) : left < right := by
  rw [lt_iff] at *
  omega

theorem lt_asymm (earlier : left < right) : ¬right < left := by
  rw [lt_iff] at *
  omega

theorem lt_after (location : Location) (character : Char) :
    location < location.after character := by
  rw [lt_iff, Location.after]
  split <;> simp

/-! ## Longer texts -/

theorem afterText_append (location : Location) (before after : List Char) :
    location.afterText (before ++ after) = (location.afterText before).afterText after :=
  List.foldl_append

theorem lt_afterText (notEmpty : text ≠ []) : location < location.afterText text := by
  induction text generalizing location with
  | nil => exact absurd rfl notEmpty
  | cons first rest ih =>
      have firstLater := location.lt_after first
      by_cases last : rest = []
      · subst last
        exact firstLater
      · exact lt_trans firstLater (ih last)

theorem lt_afterText_append (notEmpty : after ≠ []) :
    location.afterText before < location.afterText (before ++ after) := by
  rw [afterText_append]
  exact lt_afterText notEmpty

/-- Newlines count the lines before a place, and the characters since the last newline count the
columns before it. -/
theorem afterText_start (text : List Char) :
    start.afterText text =
      ⟨1 + text.count '\n', 1 + (text.rtakeWhile fun character => character ≠ '\n').length⟩ := by
  induction text using List.reverseRecOn with
  | nil => rfl
  | append_singleton text last ih =>
      have lastRead : start.afterText (text ++ [last]) = (start.afterText text).after last :=
        afterText_append start text [last]
      rw [lastRead, ih, Location.after, List.rtakeWhile_concat, List.count_append]
      by_cases newline : last = '\n' <;> simp [newline, Nat.add_assoc]

/-- The end of a text is where a walk over its characters ends. -/
theorem ofEnd_eq_afterText (text : List Char) : ofEnd text = start.afterText text := by
  rw [afterText_start, ofEnd, lastLine_eq_rtakeWhile, Nat.add_comm, Nat.add_comm _ 1]

/-! ## Offsets -/

/-- The place of an offset at which a character starts is the one after the text before it. -/
theorem ofOffset_byteLength (before after : List Char) :
    ofOffset (before ++ after) (byteLength before) = start.afterText before := by
  rw [ofOffset, takeBytes?_append, Option.getD_some, ofEnd_eq_afterText]

theorem ofOffset_cases (text : List Char) (offset : Nat) :
    (∃ before after, text = before ++ after ∧ byteLength before = offset) ∨
      ofOffset text offset = start.afterText text := by
  cases taken : takeBytes? offset text with
  | some before =>
      rcases takeBytes?_eq_some_iff.mp taken with ⟨after, textEq, lengthEq⟩
      exact Or.inl ⟨before, after, textEq, lengthEq⟩
  | none =>
      right
      rw [ofOffset, taken, Option.getD_none, ofEnd_eq_afterText]

/-- A place before the end of a text is that of one offset only. -/
theorem ofOffset_eq_afterText_iff (notEnd : after ≠ []) :
    ofOffset (before ++ after) offset = start.afterText before ↔ offset = byteLength before := by
  constructor
  · intro samePlace
    rcases ofOffset_cases (before ++ after) offset with ⟨other, rest, textEq, rfl⟩ | atEnd
    · rw [textEq, ofOffset_byteLength] at samePlace
      rcases List.append_eq_append_iff.mp textEq with ⟨between, rfl, _⟩ | ⟨between, rfl, _⟩
      · by_cases empty : between = []
        · simp [empty]
        · exact absurd samePlace.symm (ne_of_lt (lt_afterText_append empty))
      · by_cases empty : between = []
        · simp [empty]
        · exact absurd samePlace (ne_of_lt (lt_afterText_append empty))
    · rw [atEnd] at samePlace
      exact absurd samePlace.symm (ne_of_lt (lt_afterText_append notEnd))
  · rintro rfl
    exact ofOffset_byteLength before after

end Location

end TikzGlyph
