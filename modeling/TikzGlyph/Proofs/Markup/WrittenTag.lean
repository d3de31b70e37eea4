import TikzGlyph.Proofs.Markup.TagText
import TikzGlyph.Proofs.Markup.WrittenAttribute

/-!
# Written tags

A tag is written as its name, its attributes and some space. It opens an element with the attributes
it was written with, whatever their values hold: no character of a value ends the tag, and a slash
at the end of a value does not make the tag self-closing.
-/

namespace TikzGlyph

namespace Markup

/-- What a tag holds between its `<` and its end. -/
structure WrittenTag where
  name : Name
  attributes : List WrittenAttribute
  distinct : (attributes.map fun written => written.name.letters).Nodup
  after : Space

namespace WrittenTag

/-- The attributes of a tag, and the space after them, as they are written. -/
def attributesText (tag : WrittenTag) : List Char :=
  tag.attributes.flatMap WrittenAttribute.text ++ tag.after.characters

def content (tag : WrittenTag) : List Char := tag.name.letters ++ tag.attributesText

def readAs (tag : WrittenTag) : List Attribute := tag.attributes.map WrittenAttribute.toAttribute

end WrittenTag

/-! ## Contents of tags -/

theorem Name.plain (name : Name) :
    ∀ letter ∈ name.letters, isQuote letter = false ∧ letter ≠ '>' := by
  intro letter letterMem
  have regular := Name.not_of_mem letterMem
  refine ⟨regular.2.1, ?_⟩
  rintro rfl
  simp at regular

theorem quoteThrough?_name (name : Name) : quoteThrough? none name.letters = some none :=
  quoteThrough?_of_plain name.plain

theorem WrittenAttribute.quoteThrough?_texts (attributes : List WrittenAttribute) :
    quoteThrough? none (attributes.flatMap WrittenAttribute.text) = some none := by
  rw [← texts_spaced]
  apply Markup.quoteThrough?_texts
  intro written writtenMem
  simp only [List.map_map, List.mem_map] at writtenMem
  rcases writtenMem with ⟨owner, _, rfl⟩
  simpa [WrittenAttribute.spaced] using owner.name.plain

namespace WrittenTag

variable (tag : WrittenTag)

theorem quoteThrough?_content : quoteThrough? none tag.content = some none := by
  rw [content, attributesText, quoteThrough?_append (quoteThrough?_name _),
    quoteThrough?_append (WrittenAttribute.quoteThrough?_texts _)]
  exact quoteThrough?_space tag.after

theorem readAttributes_attributesText (position : Nat) :
    readAttributes position tag.attributesText = .ok tag.readAs := by
  have distinct : ((tag.attributes.map WrittenAttribute.spaced).map SpacedAttribute.key).Nodup := by
    simpa [Function.comp_def] using tag.distinct
  have read := readAttributes_texts position distinct tag.after
  simpa [attributesText, readAs, Function.comp_def] using read

theorem isSpace_of_head?_attributesText :
    ∀ first ∈ tag.attributesText.head?, isSpace first = true := by
  intro first firstEq
  rw [attributesText] at firstEq
  cases attributesEq : tag.attributes with
  | nil =>
      rw [attributesEq] at firstEq
      exact tag.after.isSpace_of_mem first (List.mem_of_mem_head? firstEq)
  | cons written rest =>
      rcases List.exists_cons_of_ne_nil written.separated with ⟨space, others, beforeEq⟩
      rw [attributesEq] at firstEq
      simp only [List.flatMap_cons, WrittenAttribute.text, beforeEq, List.cons_append,
        List.head?_cons, Option.mem_some_iff] at firstEq
      subst firstEq
      exact written.before.isSpace_of_mem space (by rw [beforeEq]; exact List.mem_cons_self)

@[simp]
theorem tagName_content : tagName tag.content = tag.name.letters :=
  tagName_append (fun _ letterMem => (Name.not_of_mem letterMem).1)
    tag.isSpace_of_head?_attributesText

theorem tagAttributes_content : tagAttributes tag.content = .ok tag.readAs := by
  rw [tagAttributes, tagName_content, content, List.drop_left]
  exact tag.readAttributes_attributesText _

theorem getLast?_content : tag.content.getLast? ≠ some '/' := by
  intro slashLast
  rw [content, attributesText, ← WrittenAttribute.texts_spaced, List.getLast?_append] at slashLast
  rcases Option.or_eq_some_iff.mp slashLast with slashLast | ⟨_, inName⟩
  · exact getLast?_texts _ tag.after slashLast
  · have regular := Name.not_of_mem (List.mem_of_getLast? inName)
    simp at regular

theorem exists_content_eq_cons :
    ∃ first rest, tag.content = first :: rest ∧ first ∉ ['!', '?', '>', '/', '=', ':'] := by
  rcases List.exists_cons_of_ne_nil tag.name.not_empty with ⟨first, rest, lettersEq⟩
  refine ⟨first, rest ++ tag.attributesText, ?_, ?_⟩
  · rw [content, lettersEq, List.cons_append]
  · have firstMem : first ∈ tag.name.letters := by
      rw [lettersEq]
      exact List.mem_cons_self
    exact (Name.not_of_mem firstMem).2.2

/-! ## Events of tags -/

variable (openNames : List (List Char)) (position : Nat) (rest : List Char)

def openingEvent : Event := .opening tag.name.letters tag.readAs position

@[simp]
theorem openingEvent_content :
    Markup.openingEvent position tag.content = .ok (tag.openingEvent position) := by
  rw [Markup.openingEvent, tagAttributes_content, tagName_content]
  rfl

/-- A start tag opens an element with the attributes that it was written with. -/
theorem eventsFrom_startTag :
    eventsFrom openNames position ('<' :: tag.content ++ '>' :: rest) =
      (eventsFrom (tag.name.letters :: openNames) (position + byteLength tag.content + 2)
        rest).prepend [tag.openingEvent position] := by
  rcases tag.exists_content_eq_cons with ⟨first, others, contentEq, regular⟩
  have role : TagRole.ofContent tag.content = .opens tag.content := by
    have notClosing := tag.getLast?_content
    rw [contentEq] at notClosing ⊢
    rw [TagRole.ofContent_cons (by rintro rfl; simp at regular), if_neg notClosing]
  have read : tagEvents openNames ⟨position, tag.content⟩ =
      .ok ([tag.openingEvent position], tag.name.letters :: openNames) := by
    rw [tagEvents, role]
    simp only [openingEvent_content, tagName_content]
    rfl
  have through := tag.quoteThrough?_content
  rw [contentEq] at read through ⊢
  exact eventsFrom_tag (fun mem => regular (List.mem_append_left ['/', '=', ':'] mem)) through read

/-- A self-closing tag opens an element and closes it at the same place. -/
theorem eventsFrom_selfClosingTag :
    eventsFrom openNames position ('<' :: (tag.content ++ ['/']) ++ '>' :: rest) =
      (eventsFrom openNames (position + byteLength (tag.content ++ ['/']) + 2) rest).prepend
        [tag.openingEvent position, .closing tag.name.letters position] := by
  rcases tag.exists_content_eq_cons with ⟨first, others, contentEq, regular⟩
  have role : TagRole.ofContent (tag.content ++ ['/']) = .opensAndCloses tag.content := by
    rw [contentEq, List.cons_append, TagRole.ofContent_cons (by rintro rfl; simp at regular),
      ← List.cons_append, if_pos List.getLast?_concat, List.dropLast_concat]
  have read : tagEvents openNames ⟨position, tag.content ++ ['/']⟩ =
      .ok ([tag.openingEvent position, .closing tag.name.letters position], openNames) := by
    rw [tagEvents, role]
    simp only [openingEvent_content, tagName_content]
    rfl
  have through : quoteThrough? none (tag.content ++ ['/']) = some none :=
    quoteThrough?_append tag.quoteThrough?_content ['/']
  rw [contentEq] at read through ⊢
  exact eventsFrom_tag (fun mem => regular (List.mem_append_left ['/', '=', ':'] mem)) through read

end WrittenTag

theorem trimEndSpace_name (name : Name) (space : Space) :
    trimEndSpace (name.letters ++ space.characters) = name.letters := by
  have spacesDropped : ∀ character ∈ space.characters.reverse, isSpace character = true := by
    intro character characterMem
    exact space.isSpace_of_mem character (List.mem_reverse.mp characterMem)
  have nameKept : name.letters.reverse.dropWhile isSpace = name.letters.reverse := by
    rcases List.exists_cons_of_ne_nil (List.reverse_ne_nil_iff.mpr name.not_empty) with
      ⟨last, others, reversedEq⟩
    have lastMem : last ∈ name.letters := by
      rw [← List.mem_reverse, reversedEq]
      exact List.mem_cons_self
    rw [reversedEq, List.dropWhile_cons_of_neg (by simp [(Name.not_of_mem lastMem).1])]
  rw [trimEndSpace, List.reverse_append, List.dropWhile_append_of_pos spacesDropped, nameKept,
    List.reverse_reverse]

theorem quoteThrough?_endTag (name : Name) (space : Space) :
    quoteThrough? none ('/' :: (name.letters ++ space.characters)) = some none := by
  rw [quoteThrough?_cons (by simp)]
  change quoteThrough? none _ = _
  rw [quoteThrough?_append (quoteThrough?_name name)]
  exact quoteThrough?_space space

theorem tagEvents_endTag (openNames : List (List Char)) (position : Nat) (name : Name)
    (space : Space) :
    tagEvents openNames ⟨position, '/' :: (name.letters ++ space.characters)⟩ =
      (closeElement openNames name.letters).map fun outer =>
        ([.closing name.letters position], outer) := by
  have role : TagRole.ofContent ('/' :: (name.letters ++ space.characters)) =
      .closes name.letters := by
    rw [TagRole.ofContent, trimEndSpace_name, if_neg name.not_empty]
  rw [tagEvents, role]

/-- An end tag closes the innermost open element if it has the same name. -/
theorem eventsFrom_endTag (openNames : List (List Char)) (position : Nat) (rest : List Char)
    (name : Name) (space : Space) :
    eventsFrom (name.letters :: openNames) position
        ('<' :: ('/' :: (name.letters ++ space.characters)) ++ '>' :: rest) =
      (eventsFrom openNames
        (position + byteLength ('/' :: (name.letters ++ space.characters)) + 2) rest).prepend
          [.closing name.letters position] := by
  have read : tagEvents (name.letters :: openNames)
      ⟨position, '/' :: (name.letters ++ space.characters)⟩ =
        .ok ([.closing name.letters position], openNames) := by
    rw [tagEvents_endTag, closeElement, if_pos rfl]
    rfl
  exact eventsFrom_tag (by simp) (quoteThrough?_endTag name space) read

/-- An end tag with another name than the innermost open element is a fault. -/
theorem eventsFrom_endTag_of_ne {innermost : List Char} {name : Name}
    (different : innermost ≠ name.letters) (openNames : List (List Char)) (position : Nat)
    (rest : List Char) (space : Space) :
    eventsFrom (innermost :: openNames) position
        ('<' :: ('/' :: (name.letters ++ space.characters)) ++ '>' :: rest) =
      ⟨[], some (.structural
        (.mismatchedEnd (String.ofList innermost) (String.ofList name.letters)))⟩ := by
  apply eventsFrom_tag_of_error (by simp) (quoteThrough?_endTag name space)
  rw [tagEvents_endTag, closeElement, if_neg different]
  rfl

/-- Space between tags has no events. -/
theorem eventsFrom_space (openNames : List (List Char)) (position : Nat) (space : Space)
    (rest : List Char) :
    eventsFrom openNames position (space.characters ++ rest) =
      eventsFrom openNames (position + byteLength space.characters) rest := by
  apply eventsFrom_characters
  intro character characterMem
  have regular := Space.not_of_mem characterMem
  constructor <;> rintro rfl <;> simp at regular

end Markup

end TikzGlyph
