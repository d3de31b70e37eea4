import TikzGlyph.Tikz.Writer

/-!
# Texts that grow by lines

A text grows line by line, and a newline goes before every line but the first. Since a text without
any line is empty, an empty text gets no newline; so the lines are joined by newlines if the first
of them is not empty.
-/

namespace TikzGlyph

namespace Tikz

namespace Writer

/-- Lines added to a text that has one already are joined to it by newlines. -/
theorem foldl_appendLine {text : String} (notEmpty : text ≠ "") (lines : List String) :
    lines.foldl appendLine text = "\n".intercalate (text :: lines) := by
  induction lines generalizing text with
  | nil => rw [List.foldl_nil, String.intercalate_singleton]
  | cons first rest ih =>
      have extendedNotEmpty : text ++ "\n" ++ first ≠ "" := by
        simp [String.append_eq_empty_iff, notEmpty]
      rw [List.foldl_cons, appendLine, if_neg notEmpty, ih extendedNotEmpty,
        String.intercalate_cons_append, String.intercalate_cons_cons]

/-- Lines that are added one by one, none of them empty, are joined by newlines. -/
theorem foldl_appendLine_empty {lines : List String} (notEmpty : ∀ line ∈ lines, line ≠ "") :
    lines.foldl appendLine "" = "\n".intercalate lines := by
  cases lines with
  | nil => rw [List.foldl_nil, String.intercalate_nil]
  | cons first rest =>
      have firstNotEmpty := notEmpty first List.mem_cons_self
      rw [List.foldl_cons, appendLine, if_pos rfl, foldl_appendLine firstNotEmpty]

end Writer

end Tikz

end TikzGlyph
