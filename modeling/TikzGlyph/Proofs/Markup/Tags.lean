import TikzGlyph.Proofs.Markup.Continuation

/-!
# One tag at a time

A tag whose quotes are paired is found as a whole: its content may hold any characters, and a `>`
within quotes does not end it. Characters other than `<` and `&` between two tags are passed over.
The statements say how the events of a text go on after a tag and after such characters.
-/

namespace TikzGlyph

namespace Markup

/-- The quote that a tag is inside of after some text, unless a `>` in the text ends the tag. -/
def quoteThrough? (quote : Option Char) (text : List Char) : Option (Option Char) :=
  text.foldlM
    (fun current character =>
      if current = none ∧ character = '>' then none else some (quoteAfter current character))
    quote

theorem quoteThrough?_cons {quote : Option Char} {first : Char}
    (inside : ¬ (quote = none ∧ first = '>')) (rest : List Char) :
    quoteThrough? quote (first :: rest) = quoteThrough? (quoteAfter quote first) rest := by
  rw [quoteThrough?, List.foldlM_cons, if_neg inside]
  rfl

theorem quoteThrough?_append {quote middle : Option Char} {left : List Char}
    (leftThrough : quoteThrough? quote left = some middle) (right : List Char) :
    quoteThrough? quote (left ++ right) = quoteThrough? middle right := by
  rw [quoteThrough?, List.foldlM_append]
  change (quoteThrough? quote left >>= fun current => quoteThrough? current right) = _
  rw [leftThrough]
  rfl

theorem quoteThrough?_of_plain {text : List Char}
    (plain : ∀ character ∈ text, isQuote character = false ∧ character ≠ '>') :
    quoteThrough? none text = some none := by
  induction text with
  | nil => rfl
  | cons first rest ih =>
      rcases plain first List.mem_cons_self with ⟨noQuote, noEnd⟩
      have restPlain := ih fun character characterMem =>
        plain character (List.mem_cons_of_mem first characterMem)
      have quoteEq : quoteAfter none first = none := by simp [quoteAfter, noQuote]
      rw [quoteThrough?_cons (fun ends => noEnd ends.2), quoteEq]
      exact restPlain

theorem quoteThrough?_of_notMem {quote : Char} {text : List Char} (absent : quote ∉ text) :
    quoteThrough? (some quote) text = some (some quote) := by
  induction text with
  | nil => rfl
  | cons first rest ih =>
      rw [List.mem_cons, not_or] at absent
      have firstApart : first ≠ quote := fun same => absent.1 same.symm
      have quoteEq : quoteAfter (some quote) first = some quote := by
        simp [quoteAfter, firstApart]
      rw [quoteThrough?_cons (by simp), quoteEq]
      exact ih absent.2

theorem quoteThrough?_quoted {quote : Char} {text : List Char} (aQuote : isQuote quote = true)
    (absent : quote ∉ text) : quoteThrough? none (quote :: (text ++ [quote])) = some none := by
  have noEnd : ¬ ((none : Option Char) = none ∧ quote = '>') := by
    rintro ⟨_, rfl⟩
    cases aQuote
  have opened : quoteAfter none quote = some quote := by simp [quoteAfter, aQuote]
  rw [quoteThrough?_cons noEnd, opened, quoteThrough?_append (quoteThrough?_of_notMem absent)]
  simp [quoteThrough?, quoteAfter]

namespace Scan

variable {position : Nat} {quote : Option Char} {content rest : List Char}

theorem run_tag (through : quoteThrough? quote content = some none) (reversed : List Char) :
    run position (.tag quote reversed) (content ++ '>' :: rest) =
      cons ⟨position + byteLength content - byteLength (reversed.reverse ++ content) - 1,
          reversed.reverse ++ content⟩
        (run (position + byteLength content + 1) .text rest) := by
  induction content generalizing position quote reversed with
  | nil =>
      cases through
      have ended : Place.step (.tag none reversed) '>' = .tag reversed := by simp [Place.step]
      rw [List.nil_append, run_cons_of_tag ended]
      simp
      rfl
  | cons first others ih =>
      by_cases ends : quote = none ∧ first = '>'
      · rw [quoteThrough?, List.foldlM_cons, if_pos ends] at through
        cases through
      · rw [quoteThrough?_cons ends] at through
        have moved : Place.step (.tag quote reversed) first =
            .move (.tag (quoteAfter quote first) (first :: reversed)) := by
          simp only [Place.step, if_neg ends]
        rw [List.cons_append, run_cons_of_move moved, ih through]
        simp [Nat.add_assoc]

/-- A tag is found with its content and with the offset of its `<`. -/
theorem run_text_tag {first : Char} (regular : first ∉ ['!', '?', '>'])
    (through : quoteThrough? none (first :: content) = some none) :
    run position .text ('<' :: (first :: content) ++ '>' :: rest) =
      cons ⟨position, first :: content⟩
        (run (position + byteLength (first :: content) + 2) .text rest) := by
  simp only [List.mem_cons, List.not_mem_nil, or_false, not_or] at regular
  have opened : Place.step .text '<' = .move .opened := rfl
  have begun : Place.step .opened first = .move (.tag (quoteAfter none first) [first]) := by
    simp [Place.step, Place.stepOpened, regular]
  rw [quoteThrough?_cons (fun ends => regular.2.2 ends.2)] at through
  rw [List.cons_append, run_cons_of_move opened, List.cons_append, run_cons_of_move begun,
    run_tag through]
  have angle : ('<').utf8Size = 1 := rfl
  have offset : position + 1 + first.utf8Size + byteLength content -
      (first.utf8Size + byteLength content) - 1 = position := by omega
  have after : position + 1 + first.utf8Size + byteLength content + 1 =
      position + (first.utf8Size + byteLength content) + 2 := by omega
  simp [angle, offset, after]

theorem run_text_characters {text : List Char}
    (plain : ∀ character ∈ text, character ≠ '<' ∧ character ≠ '&') :
    run position .text (text ++ rest) = run (position + byteLength text) .text rest := by
  induction text generalizing position with
  | nil => rfl
  | cons first others ih =>
      rcases plain first List.mem_cons_self with ⟨noTag, noReference⟩
      have moved : Place.step .text first = .move .text := by
        simp [Place.step, noTag, noReference]
      have othersPlain := fun character characterMem =>
        plain character (List.mem_cons_of_mem first characterMem)
      rw [List.cons_append, run_cons_of_move moved, ih othersPlain, byteLength_cons, Nat.add_assoc]

end Scan

variable {openNames : List (List Char)} {position : Nat} {content rest : List Char}

/-- After a tag the events of the text after it come, read with the elements open after it. -/
theorem eventsFrom_tag {first : Char} {next : List (List Char)} {events : List Event}
    (regular : first ∉ ['!', '?', '>'])
    (through : quoteThrough? none (first :: content) = some none)
    (read : tagEvents openNames ⟨position, first :: content⟩ = .ok (events, next)) :
    eventsFrom openNames position ('<' :: (first :: content) ++ '>' :: rest) =
      (eventsFrom next (position + byteLength (first :: content) + 2) rest).prepend events := by
  simp only [eventsFrom]
  rw [Scan.run_text_tag regular through]
  exact Scan.trace_cons_of_ok read

theorem eventsFrom_tag_of_error {first : Char} {cause : Error} (regular : first ∉ ['!', '?', '>'])
    (through : quoteThrough? none (first :: content) = some none)
    (failed : tagEvents openNames ⟨position, first :: content⟩ = .error cause) :
    eventsFrom openNames position ('<' :: (first :: content) ++ '>' :: rest) =
      ⟨[], some cause⟩ := by
  simp only [eventsFrom]
  rw [Scan.run_text_tag regular through]
  exact Scan.trace_cons_of_error failed

theorem eventsFrom_characters {text : List Char}
    (plain : ∀ character ∈ text, character ≠ '<' ∧ character ≠ '&') :
    eventsFrom openNames position (text ++ rest) =
      eventsFrom openNames (position + byteLength text) rest := by
  simp only [eventsFrom]
  rw [Scan.run_text_characters plain]

end Markup

end TikzGlyph
