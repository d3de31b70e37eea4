import TikzGlyph.Markup.Entity
import TikzGlyph.Proofs.Result

/-!
# Escaped values

A value is written with entities in place of the four characters that mean something in markup or
end a value. Unescaping gives every value back, whatever characters it holds, and a written value
holds no quote that would end it.
-/

namespace TikzGlyph

namespace Markup

/-- A character of a value as it is written between double quotes. -/
def escapeCharacter (character : Char) : List Char :=
  if character = '&' then ['&', 'a', 'm', 'p', ';']
  else if character = '<' then ['&', 'l', 't', ';']
  else if character = '>' then ['&', 'g', 't', ';']
  else if character = '\x22' then ['&', 'q', 'u', 'o', 't', ';']
  else [character]

/-- A value as it is written between double quotes. -/
def escape (value : List Char) : List Char := value.flatMap escapeCharacter

theorem foldlM_step_escapeCharacter (length position : Nat) (character : Char)
    (found : List Char) :
    ∃ next, (escapeCharacter character).foldlM (Unescaping.step length) ⟨position, none, found⟩ =
      .ok ⟨next, none, character :: found⟩ := by
  unfold escapeCharacter
  split
  · next same =>
      subst same
      exact ⟨_, rfl⟩
  split
  · next same =>
      subst same
      exact ⟨_, rfl⟩
  split
  · next same =>
      subst same
      exact ⟨_, rfl⟩
  split
  · next same =>
      subst same
      exact ⟨_, rfl⟩
  · next notAmpersand _ _ _ =>
      refine ⟨position + character.utf8Size, foldlM_cons_of_ok ?_ []⟩
      simp [Unescaping.step, notAmpersand]

theorem foldlM_step_escape (length position : Nat) (value found : List Char) :
    ∃ next, (escape value).foldlM (Unescaping.step length) ⟨position, none, found⟩ =
      .ok ⟨next, none, value.reverse ++ found⟩ := by
  induction value generalizing position found with
  | nil => exact ⟨position, rfl⟩
  | cons first rest ih =>
      rcases foldlM_step_escapeCharacter length position first found with ⟨middle, firstRead⟩
      rcases ih middle (first :: found) with ⟨next, restRead⟩
      refine ⟨next, ?_⟩
      rw [escape, List.flatMap_cons, foldlM_append_of_ok firstRead, ← escape, restRead]
      simp

theorem unescape_escape (value : List Char) : unescape (escape value) = .ok value := by
  rcases foldlM_step_escape (byteLength (escape value)) 0 value [] with ⟨next, read⟩
  have begun : (escape value).foldlM (Unescaping.step (byteLength (escape value))) .start =
      .ok ⟨next, none, value.reverse ++ []⟩ := read
  simp [unescape, begun, Except.bind, Unescaping.finish]

theorem notMem_escape (value : List Char) : '\x22' ∉ escape value := by
  intro quoteMem
  rcases List.mem_flatMap.mp quoteMem with ⟨character, _, written⟩
  unfold escapeCharacter at written
  split at written
  · simp at written
  split at written
  · simp at written
  split at written
  · simp at written
  split at written
  · simp at written
  · next notQuote => exact notQuote (List.mem_singleton.mp written).symm

end Markup

end TikzGlyph
