import Mathlib.Data.List.TakeWhile
import TikzGlyph.Text.Blank

/-!
# Texts without blank ends

Trimming cuts a text into blank characters, a part that neither starts nor ends with one, and blank
characters again. There is only one such part, so saying that a text is cut in this way says what is
left of it. Nothing is left exactly if all characters are blank.
-/

namespace TikzGlyph

variable {text middle : List Char}

/-- A text that neither starts nor ends with a blank character. -/
structure HasPlainEnds (text : List Char) : Prop where
  head_plain : ∀ character, text.head? = some character → isBlank character = false
  last_plain : ∀ character, text.getLast? = some character → isBlank character = false

/-- A part of a text with plain ends and with nothing but blank characters around it. -/
def IsTrimmed (text middle : List Char) : Prop :=
  HasPlainEnds middle ∧ ∃ before after, text = before ++ middle ++ after ∧
    (∀ character ∈ before, isBlank character = true) ∧
    ∀ character ∈ after, isBlank character = true

theorem dropWhile_isBlank_eq_self
    (plain : ∀ character, text.head? = some character → isBlank character = false) :
    text.dropWhile isBlank = text := by
  cases text with
  | nil => rfl
  | cons first rest =>
      have firstPlain : ¬isBlank first = true := by simp [plain first rfl]
      exact List.dropWhile_cons_of_neg firstPlain

theorem head?_dropWhile_isBlank {character : Char}
    (first : (text.dropWhile isBlank).head? = some character) : isBlank character = false := by
  have kept := List.head?_dropWhile_not isBlank text
  rw [first] at kept
  simpa using kept

theorem trimBlank_eq_nil_iff :
    trimBlank text = [] ↔ ∀ character ∈ text, isBlank character = true := by
  have dropped : text.dropWhile isBlank = [] ↔ ∀ character ∈ text, isBlank character = true :=
    List.dropWhile_eq_nil_iff
  constructor
  · intro nothingLeft
    rw [trimBlank, List.reverse_eq_nil_iff, List.dropWhile_eq_nil_iff] at nothingLeft
    cases front : text.dropWhile isBlank with
    | nil => exact dropped.mp front
    | cons first rest =>
        have firstPlain := head?_dropWhile_isBlank (congrArg List.head? front)
        have firstBlank := nothingLeft first (by simp [front])
        rw [firstPlain] at firstBlank
        cases firstBlank
  · intro blank
    rw [trimBlank, dropped.mpr blank]
    rfl

theorem isTrimmed_trimBlank (text : List Char) : IsTrimmed text (trimBlank text) := by
  have frontCut := List.takeWhile_append_dropWhile (p := isBlank) (l := text)
  have backCut := List.takeWhile_append_dropWhile (p := isBlank)
    (l := (text.dropWhile isBlank).reverse)
  have keptEq : text.dropWhile isBlank =
      trimBlank text ++ ((text.dropWhile isBlank).reverse.takeWhile isBlank).reverse := by
    rw [trimBlank, ← List.reverse_append, backCut, List.reverse_reverse]
  refine ⟨⟨?_, ?_⟩, text.takeWhile isBlank,
    ((text.dropWhile isBlank).reverse.takeWhile isBlank).reverse, ?_, ?_, ?_⟩
  · intro character first
    have keptFirst : (text.dropWhile isBlank).head? = some character := by
      rw [keptEq, List.head?_append, first]
      rfl
    exact head?_dropWhile_isBlank keptFirst
  · intro character last
    rw [trimBlank, List.getLast?_reverse] at last
    exact head?_dropWhile_isBlank last
  · rw [List.append_assoc, ← keptEq, frontCut]
  · intro character characterMem
    exact List.mem_takeWhile_imp characterMem
  · intro character characterMem
    exact List.mem_takeWhile_imp (List.mem_reverse.mp characterMem)

theorem isTrimmed_self (plain : ∀ character ∈ text, isBlank character = false) :
    IsTrimmed text text := by
  refine ⟨⟨?_, ?_⟩, [], [], ?_, ?_, ?_⟩
  · intro character first
    exact plain character (List.mem_of_mem_head? first)
  · intro character last
    exact plain character (List.mem_of_getLast? last)
  · simp
  · simp
  · simp

/-- Trimming leaves the one part that has plain ends and blank characters around it. -/
theorem isTrimmed_iff : IsTrimmed text middle ↔ middle = trimBlank text := by
  constructor
  · rintro ⟨plain, before, after, rfl, beforeBlank, afterBlank⟩
    rw [trimBlank, List.append_assoc, List.dropWhile_append_of_pos beforeBlank]
    cases middle with
    | nil =>
        rw [List.nil_append, List.dropWhile_eq_nil_iff.mpr afterBlank]
        rfl
    | cons first rest =>
        have frontPlain : ∀ character, ((first :: rest) ++ after).head? = some character →
            isBlank character = false := fun character head => plain.head_plain character head
        have backBlank : ∀ character ∈ after.reverse, isBlank character = true :=
          fun character mem => afterBlank character (List.mem_reverse.mp mem)
        have backPlain : ∀ character, (first :: rest).reverse.head? = some character →
            isBlank character = false := by
          intro character last
          rw [List.head?_reverse] at last
          exact plain.last_plain character last
        rw [dropWhile_isBlank_eq_self frontPlain, List.reverse_append,
          List.dropWhile_append_of_pos backBlank, dropWhile_isBlank_eq_self backPlain,
          List.reverse_reverse]
  · rintro rfl
    exact isTrimmed_trimBlank text

end TikzGlyph
