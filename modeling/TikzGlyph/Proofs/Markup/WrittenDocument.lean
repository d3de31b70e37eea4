import TikzGlyph.Proofs.Markup.WrittenTag

/-!
# Written documents

A document is a run of elements, each written as a self-closing tag or as a start tag, more of the
document and an end tag; there may be space between the tags. The events of its text are those of
its elements from the first to the last, an element opening before and closing after what is in it.
Each event stands at the `<` of its tag.
-/

namespace TikzGlyph

namespace Markup

/-- A part of a written document: space between tags, or an element. -/
inductive Written
  | blank (space : Space)
  | selfClosing (tag : WrittenTag)
  | paired (tag : WrittenTag) (content : List Written) (afterName : Space)

namespace Written

mutual

def text : Written → List Char
  | .blank space => space.characters
  | .selfClosing tag => '<' :: (tag.content ++ ['/']) ++ ['>']
  | .paired tag content afterName =>
      '<' :: tag.content ++ '>' :: (textOfAll content ++
        ('<' :: ('/' :: (tag.name.letters ++ afterName.characters)) ++ ['>']))

def textOfAll : List Written → List Char
  | [] => []
  | first :: rest => first.text ++ textOfAll rest

end

mutual

/-- The events of a part that starts at a byte offset. -/
def events (position : Nat) : Written → List Event
  | .blank _ => []
  | .selfClosing tag => [tag.openingEvent position, .closing tag.name.letters position]
  | .paired tag content _ =>
      let inside := position + byteLength tag.content + 2
      tag.openingEvent position :: (eventsOfAll inside content ++
        [.closing tag.name.letters (inside + byteLength (textOfAll content))])

def eventsOfAll (position : Nat) : List Written → List Event
  | [] => []
  | first :: rest => first.events position ++ eventsOfAll (position + byteLength first.text) rest

end

mutual

theorem eventsFrom_text (written : Written) (openNames : List (List Char)) (position : Nat)
    (rest : List Char) :
    eventsFrom openNames position (written.text ++ rest) =
      (eventsFrom openNames (position + byteLength written.text) rest).prepend
        (written.events position) := by
  cases written with
  | blank space => exact eventsFrom_space openNames position space rest
  | selfClosing tag =>
      have angles : ('<').utf8Size = 1 ∧ ('>').utf8Size = 1 := ⟨rfl, rfl⟩
      have after : position + byteLength (selfClosing tag).text =
          position + byteLength (tag.content ++ ['/']) + 2 := by
        simp [text, angles]
        omega
      rw [after, events, ← tag.eventsFrom_selfClosingTag openNames position rest, text,
        List.append_assoc, List.singleton_append]
  | paired tag content afterName =>
      have angles : ('<').utf8Size = 1 ∧ ('>').utf8Size = 1 := ⟨rfl, rfl⟩
      have after : position + byteLength (paired tag content afterName).text =
          position + byteLength tag.content + 2 + byteLength (textOfAll content) +
            byteLength ('/' :: (tag.name.letters ++ afterName.characters)) + 2 := by
        simp [text, angles]
        omega
      have textEq : (paired tag content afterName).text ++ rest =
          '<' :: tag.content ++ '>' :: (textOfAll content ++
            ('<' :: ('/' :: (tag.name.letters ++ afterName.characters)) ++ '>' :: rest)) := by
        simp [text]
      rw [textEq, tag.eventsFrom_startTag, eventsFrom_textOfAll content, eventsFrom_endTag, after,
        Trace.prepend_prepend, Trace.prepend_prepend, events]
      simp

theorem eventsFrom_textOfAll (document : List Written) (openNames : List (List Char))
    (position : Nat) (rest : List Char) :
    eventsFrom openNames position (textOfAll document ++ rest) =
      (eventsFrom openNames (position + byteLength (textOfAll document)) rest).prepend
        (eventsOfAll position document) := by
  cases document with
  | nil => simp [textOfAll, eventsOfAll, Trace.prepend_nil]
  | cons first others =>
      rw [textOfAll, List.append_assoc, eventsFrom_text first, eventsFrom_textOfAll others,
        Trace.prepend_prepend, byteLength_append, ← Nat.add_assoc, eventsOfAll]

end

theorem head?_textOfAll_ne (document : List Written) :
    (textOfAll document).head? ≠ some '\ufeff' := by
  induction document with
  | nil => simp [textOfAll]
  | cons first rest ih =>
      rw [textOfAll, List.head?_append]
      cases first with
      | blank space =>
          cases starts : space.characters with
          | nil => simpa [text, starts] using ih
          | cons character others =>
              have aSpace :=
                space.isSpace_of_mem character (by rw [starts]; exact List.mem_cons_self)
              have noMark : character ≠ '\ufeff' := by
                rintro rfl
                cases aSpace
              simpa [text, starts] using noMark
      | selfClosing tag => simp [text]
      | paired tag content afterName => simp [text]

theorem dropByteOrderMark_textOfAll (document : List Written) :
    dropByteOrderMark (textOfAll document) = textOfAll document := by
  cases textEq : textOfAll document with
  | nil => rfl
  | cons first rest =>
      apply dropByteOrderMark_cons
      rintro rfl
      apply head?_textOfAll_ne document
      rw [textEq, List.head?_cons]

/-- A written document is read as its events. -/
theorem events_textOfAll (document : List Written) :
    Markup.events (textOfAll document) = ⟨eventsOfAll 0 document, none⟩ := by
  have read := eventsFrom_textOfAll document [] 0 []
  rw [List.append_nil] at read
  rw [events_eq_eventsFrom, dropByteOrderMark_textOfAll, read]
  simp [Trace.prepend, eventsFrom, Scan.run, Scan.trace, Place.unfinished?]

end Written

end Markup

end TikzGlyph
