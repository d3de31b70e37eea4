/-!
# Lines

The lines of a text, as a reader of the text sees them. A line ends in a newline, or in a carriage
return and a newline. The end of the text ends the last line, if there is anything in it.
-/

namespace TikzGlyph

/-- A line without the carriage return at its end, if there is one. -/
def dropReturn (line : List Char) : List Char :=
  if line.getLast? = some '\r' then line.dropLast else line

/-- The lines of a text when a line has begun before it. -/
def linesAfter (begun : List Char) : List Char → List (List Char)
  | [] => if begun = [] then [] else [begun]
  | first :: rest =>
      if first = '\n' then dropReturn begun :: linesAfter [] rest
      else linesAfter (begun ++ [first]) rest

def textLines (text : List Char) : List (List Char) := linesAfter [] text

/-- The end of a text is not part of the end of a line. -/
def EndsPlainly (text : List Char) : Prop :=
  ∃ start last, text = start ++ [last] ∧ last ≠ '\n' ∧ last ≠ '\r'

theorem endsPlainly_append {right : List Char} (plain : EndsPlainly right) (left : List Char) :
    EndsPlainly (left ++ right) := by
  rcases plain with ⟨start, last, rfl, regular⟩
  exact ⟨left ++ start, last, (List.append_assoc left start [last]).symm, regular⟩

theorem dropReturn_concat (line : List Char) (last : Char) :
    dropReturn (line ++ [last]) = if last = '\r' then line else line ++ [last] := by
  simp [dropReturn]

theorem dropReturn_append {start : List Char} (plain : EndsPlainly start) (line : List Char) :
    dropReturn (start ++ line) = start ++ dropReturn line := by
  rcases List.eq_nil_or_concat line with rfl | ⟨others, final, rfl⟩
  · rcases plain with ⟨earlier, last, rfl, _, noReturn⟩
    rw [List.append_nil, dropReturn_concat, if_neg noReturn]
    simp [dropReturn]
  · rw [List.concat_eq_append, ← List.append_assoc, dropReturn_concat, dropReturn_concat]
    split
    · rfl
    · rw [List.append_assoc]

theorem linesAfter_append {text : List Char} (absent : '\n' ∉ text) (begun rest : List Char) :
    linesAfter begun (text ++ rest) = linesAfter (begun ++ text) rest := by
  induction text generalizing begun with
  | nil => rw [List.nil_append, List.append_nil]
  | cons first others ih =>
      rw [List.mem_cons, not_or] at absent
      have firstApart : first ≠ '\n' := fun same => absent.1 same.symm
      rw [List.cons_append, linesAfter, if_neg firstApart, ih absent.2, List.append_assoc,
        List.singleton_append]

/-- What has begun before a text stands at the start of its first line. -/
theorem linesAfter_eq_modifyHead {begun text : List Char} (plain : EndsPlainly begun)
    (more : List Char) (notEmpty : text ≠ []) :
    linesAfter (begun ++ more) text = (linesAfter more text).modifyHead (begun ++ ·) := by
  induction text generalizing more with
  | nil => exact absurd rfl notEmpty
  | cons first rest ih =>
      by_cases newline : first = '\n'
      · simp [linesAfter, newline, dropReturn_append plain]
      · simp only [linesAfter, if_neg newline, List.append_assoc]
        cases rest with
        | nil => simp [linesAfter]
        | cons second others => exact ih (more ++ [first]) (List.cons_ne_nil second others)

/-- A newline after the plain end of a text ends its last line. -/
theorem linesAfter_append_newline {text : List Char} (plain : EndsPlainly text)
    (begun rest : List Char) :
    linesAfter begun (text ++ '\n' :: rest) = linesAfter begun text ++ textLines rest := by
  rcases plain with ⟨start, last, rfl, noNewline, noReturn⟩
  induction start generalizing begun with
  | nil => simp [linesAfter, textLines, dropReturn, noNewline, noReturn]
  | cons first others ih =>
      by_cases newline : first = '\n'
      · simp only [List.cons_append, linesAfter, if_pos newline, ih]
      · simp only [List.cons_append, linesAfter, if_neg newline, ih]

theorem textLines_append_newline {text : List Char} (plain : EndsPlainly text)
    (rest : List Char) :
    textLines (text ++ '\n' :: rest) = textLines text ++ textLines rest :=
  linesAfter_append_newline plain [] rest

theorem textLines_of_notMem {text : List Char} (absent : '\n' ∉ text) (notEmpty : text ≠ []) :
    textLines text = [text] := by
  have oneLine := linesAfter_append absent [] []
  rw [List.append_nil] at oneLine
  simp [textLines, oneLine, linesAfter, notEmpty]

/-- A text without newlines stands in front of the first line of the text after it. -/
theorem textLines_append {start : List Char} (absent : '\n' ∉ start) (plain : EndsPlainly start)
    {text : List Char} (notEmpty : text ≠ []) :
    textLines (start ++ text) = (textLines text).modifyHead (start ++ ·) := by
  rw [textLines, linesAfter_append absent, List.nil_append, ← List.append_nil start]
  have fronted := linesAfter_eq_modifyHead plain [] notEmpty
  rw [fronted, List.append_nil]
  rfl

theorem linesAfter_ne_nil (begun : List Char) {text : List Char} (notEmpty : text ≠ []) :
    linesAfter begun text ≠ [] := by
  induction text generalizing begun with
  | nil => exact absurd rfl notEmpty
  | cons first rest ih =>
      by_cases newline : first = '\n'
      · simp [linesAfter, newline]
      · cases rest with
        | nil => simp [linesAfter, newline]
        | cons second others =>
            rw [linesAfter, if_neg newline]
            exact ih (begun ++ [first]) (List.cons_ne_nil second others)

theorem exists_textLines_eq_cons {text : List Char} (notEmpty : text ≠ []) :
    ∃ first, textLines text = first :: (textLines text).tail := by
  rcases List.exists_cons_of_ne_nil (linesAfter_ne_nil [] notEmpty) with ⟨first, rest, linesEq⟩
  refine ⟨first, ?_⟩
  rw [textLines, linesEq]
  rfl

theorem newline_notMem_of_mem_linesAfter {begun text line : List Char} (absent : '\n' ∉ begun)
    (lineMem : line ∈ linesAfter begun text) : '\n' ∉ line := by
  induction text generalizing begun with
  | nil =>
      rw [linesAfter] at lineMem
      split at lineMem
      · cases lineMem
      · rw [List.mem_singleton.mp lineMem]
        exact absent
  | cons first rest ih =>
      by_cases newline : first = '\n'
      · rw [linesAfter, if_pos newline] at lineMem
        rcases List.mem_cons.mp lineMem with rfl | lineMem
        · unfold dropReturn
          split
          · intro newlineMem
            exact absent (List.dropLast_subset begun newlineMem)
          · exact absent
        · apply ih _ lineMem
          simp
      · rw [linesAfter, if_neg newline] at lineMem
        apply ih _ lineMem
        simp [absent, Ne.symm newline]

/-- Texts are the lines that they make if and only if they are free of newlines. -/
theorem flatMap_textLines_eq_self_iff {texts : List (List Char)}
    (notEmpty : ∀ text ∈ texts, text ≠ []) :
    texts.flatMap textLines = texts ↔ ∀ text ∈ texts, '\n' ∉ text := by
  constructor
  · intro linesEq text textMem
    rw [← linesEq] at textMem
    rcases List.mem_flatMap.mp textMem with ⟨source, _, lineMem⟩
    exact newline_notMem_of_mem_linesAfter (by simp) lineMem
  · intro absent
    induction texts with
    | nil => rfl
    | cons first rest ih =>
        rw [List.forall_mem_cons] at notEmpty absent
        rw [List.flatMap_cons, textLines_of_notMem absent.1 notEmpty.1, ih notEmpty.2 absent.2]
        rfl

end TikzGlyph
