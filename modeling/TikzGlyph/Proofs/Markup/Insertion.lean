import TikzGlyph.Proofs.Markup.Parts
import TikzGlyph.Proofs.Markup.WrittenTag

/-!
# Texts without tags

Comments, CDATA sections, processing instructions and character data hold no tags, and a scan that
has passed over one of them is outside all markup again. So they can stand between any two parts of
a text. This file shows it by following the places that the characters lead through.
-/

namespace TikzGlyph

namespace Markup

/-- Something that can be put between the parts of a text. -/
inductive Insertion
  | comment (text : List Char) (noDash : '-' ∉ text)
  | cdata (text : List Char) (noBracket : ']' ∉ text)
  | instruction (target : Name) (content : List Char) (noQuestion : '?' ∉ content)
  | characters (text : List Char) (plain : ∀ character ∈ text, character ≠ '<' ∧ character ≠ '&')
  /-- A self-closing tag that no glyph knows. -/
  | unknownTag (tag : WrittenTag)
      (unknown : String.ofList tag.name.letters ∉ ["g", "path", "circle", "ellipse"])

def Insertion.text : Insertion → List Char
  | .comment text _ => ['<', '!', '-', '-'] ++ (text ++ ['-', '-', '>'])
  | .cdata text _ => ['<', '!', '[', 'C', 'D', 'A', 'T', 'A', '['] ++ (text ++ [']', ']', '>'])
  | .instruction target content _ => ['<', '?'] ++ (target.letters ++ content ++ ['?', '>'])
  | .characters text _ => text
  | .unknownTag tag _ => '<' :: (tag.content ++ ['/', '>'])

/-! ## Places on the way -/

namespace Place

variable {place : Place} {text : List Char}

/-- The place that a text leads to if it holds no tag and no fault. -/
def through? (place : Place) (text : List Char) : Option Place :=
  text.foldlM
    (fun current character =>
      match current.step character with
      | .move next => some next
      | _ => none)
    place

theorem through?_cons {next : Place} {first : Char} (moved : place.step first = .move next)
    (rest : List Char) : place.through? (first :: rest) = next.through? rest := by
  rw [through?, List.foldlM_cons, moved]
  rfl

theorem through?_append {middle : Place} (leftThrough : place.through? text = some middle)
    (rest : List Char) : place.through? (text ++ rest) = middle.through? rest := by
  rw [through?, List.foldlM_append]
  change (place.through? text >>= fun current => current.through? rest) = _
  rw [leftThrough]
  rfl

theorem through?_of_stays (stays : ∀ character ∈ text, place.step character = .move place) :
    place.through? text = some place := by
  induction text with
  | nil => rfl
  | cons first rest ih =>
      rw [through?_cons (stays first List.mem_cons_self)]
      exact ih fun character characterMem =>
        stays character (List.mem_cons_of_mem first characterMem)

theorem through?_comment (noDash : '-' ∉ text) :
    Place.text.through? (['<', '!', '-', '-'] ++ (text ++ ['-', '-', '>'])) = some .text := by
  have opened : Place.text.through? ['<', '!', '-', '-'] = some (.comment 0) := rfl
  have passed : (comment 0).through? text = some (.comment 0) := by
    apply through?_of_stays
    intro character characterMem
    have regular : character ≠ '-' := ne_of_mem_of_not_mem characterMem noDash
    simp [step, runAfter, regular]
  rw [through?_append opened, through?_append passed]
  rfl

theorem through?_cdata (noBracket : ']' ∉ text) :
    Place.text.through?
      (['<', '!', '[', 'C', 'D', 'A', 'T', 'A', '['] ++ (text ++ [']', ']', '>'])) =
        some .text := by
  have opened : Place.text.through? ['<', '!', '[', 'C', 'D', 'A', 'T', 'A', '['] =
      some (.cdata 0) := rfl
  have passed : (cdata 0).through? text = some (.cdata 0) := by
    apply through?_of_stays
    intro character characterMem
    have regular : character ≠ ']' := ne_of_mem_of_not_mem characterMem noBracket
    simp [step, runAfter, regular]
  rw [through?_append opened, through?_append passed]
  rfl

/-- An instruction that has begun goes on until a question mark, whatever it begins with. -/
theorem exists_through?_instruction {beginning : List Char} (begun : beginning ≠ [])
    (noQuestion : '?' ∉ text) :
    ∃ next, next ≠ [] ∧
      (instruction beginning false).through? text = some (.instruction next false) := by
  induction text generalizing beginning with
  | nil => exact ⟨beginning, begun, rfl⟩
  | cons first rest ih =>
      rw [List.mem_cons, not_or] at noQuestion
      have noMark : (first == '?') = false := beq_false_of_ne (Ne.symm noQuestion.1)
      have moved : (instruction beginning false).step first =
          .move (.instruction ((beginning ++ [first]).take 4) false) := by
        simp [step, stepInstruction, noMark]
      rw [through?_cons moved]
      exact ih (by simp) noQuestion.2

theorem through?_instruction (target : Name) {content : List Char} (noQuestion : '?' ∉ content) :
    Place.text.through? (['<', '?'] ++ (target.letters ++ content ++ ['?', '>'])) =
      some .text := by
  rcases List.exists_cons_of_ne_nil target.not_empty with ⟨first, rest, lettersEq⟩
  have letterRegular : ∀ letter ∈ first :: rest, letter ≠ '?' ∧ letter ≠ '>' := by
    intro letter letterMem
    rw [← lettersEq] at letterMem
    have regular := Name.not_of_mem letterMem
    constructor <;> rintro rfl <;> simp at regular
  have firstRegular := letterRegular first List.mem_cons_self
  have opened : Place.text.through? ['<', '?'] = some (.instruction [] true) := rfl
  have begun : (instruction [] true).step first = .move (.instruction [first] false) := by
    simp [step, stepInstruction, firstRegular]
  have othersPlain : '?' ∉ rest ++ content := by
    rw [List.mem_append, not_or]
    refine ⟨?_, noQuestion⟩
    intro questionMem
    exact (letterRegular '?' (List.mem_cons_of_mem first questionMem)).1 rfl
  rcases exists_through?_instruction (List.cons_ne_nil first []) othersPlain with
    ⟨beginning, notEmpty, passed⟩
  rw [through?_append opened, lettersEq, List.cons_append, List.cons_append, through?_cons begun,
    through?_append passed]
  simp [through?, step, stepInstruction, notEmpty]

end Place

/-- A text that leads out of all markup again, without a tag on its way, is passed over. -/
theorem scan_of_through? {text : List Char} (through : Place.text.through? text = some .text) :
    scan text = ⟨[], none⟩ := by
  have runEq : ∀ position place, place.through? text = some .text →
      Scan.run position place text = ⟨[], none⟩ := by
    clear through
    induction text with
    | nil =>
        rintro position place ⟨⟩
        rfl
    | cons first rest ih =>
        intro position place through
        cases stepped : place.step first with
        | move next =>
            rw [Place.through?_cons stepped] at through
            rw [Scan.run_cons_of_move stepped]
            exact ih _ next through
        | tag reversed => simp [Place.through?, stepped] at through
        | fail cause => simp [Place.through?, stepped] at through
  exact runEq 0 .text through

/-! ## Events of insertions -/

namespace Insertion

/-- The events of an insertion at a position. -/
def events (position : Nat) : Insertion → List Event
  | .unknownTag tag _ => [tag.openingEvent position, .closing tag.name.letters position]
  | _ => []

/-- The events of the text after an insertion come after those of the insertion, with the same
elements open. -/
theorem eventsFrom_text (inserted : Insertion) (openNames : List (List Char)) (position : Nat)
    (rest : List Char) :
    eventsFrom openNames position (inserted.text ++ rest) =
      (eventsFrom openNames (position + byteLength inserted.text) rest).prepend
        (inserted.events position) := by
  cases inserted with
  | comment text noDash =>
      exact eventsFrom_between (scan_of_through? (Place.through?_comment noDash))
  | cdata text noBracket =>
      exact eventsFrom_between (scan_of_through? (Place.through?_cdata noBracket))
  | instruction target content noQuestion =>
      exact eventsFrom_between (scan_of_through? (Place.through?_instruction target noQuestion))
  | characters text plain =>
      exact eventsFrom_characters plain
  | unknownTag tag unknown =>
      have textEq : (unknownTag tag unknown).text ++ rest =
          '<' :: (tag.content ++ ['/']) ++ '>' :: rest := by
        simp [text]
      have lengthEq : byteLength (unknownTag tag unknown).text =
          byteLength (tag.content ++ ['/']) + 2 := by
        have opening : ('<').utf8Size = 1 := rfl
        have ending : ('>').utf8Size = 1 := rfl
        simp only [text, byteLength_cons, byteLength_append, byteLength_nil, opening, ending]
        omega
      rw [textEq, tag.eventsFrom_selfClosingTag, lengthEq]
      rfl

end Insertion

end Markup

end TikzGlyph
