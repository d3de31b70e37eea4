import Mathlib.Data.List.Basic
import Mathlib.Data.List.TakeWhile
import TikzGlyph.Proofs.Markup.AttributeText
import TikzGlyph.Proofs.Markup.TagPlaces
import TikzGlyph.Proofs.Markup.Tags

/-!
# Tags with attributes

A tag with attributes holds its name, its attributes with space between them, and a slash at the end
if it is self-closing. Every tag that is read with attributes has this form. If its names hold no
quotes, the quotes around its values are paired, and the tag ends at the same `>` in any order of
attributes.
-/

namespace TikzGlyph

namespace Markup

/-- What a start tag or a self-closing tag with attributes holds before its end. -/
structure TagText where
  name : List Char
  no_space : ∀ character ∈ name, isSpace character = false
  no_slash : name.head? ≠ some '/'
  first : SpacedAttribute
  separated : first.before.characters ≠ []
  others : List SpacedAttribute
  distinct : ((first :: others).map SpacedAttribute.key).Nodup
  after : Space

theorem TagRole.ofContent_cons {first : Char} (noSlash : first ≠ '/') (rest : List Char) :
    TagRole.ofContent (first :: rest) =
      if (first :: rest).getLast? = some '/' then .opensAndCloses (first :: rest).dropLast
      else .opens (first :: rest) := by
  unfold TagRole.ofContent
  split
  · next name same =>
      rw [List.cons.injEq] at same
      exact absurd same.1 noSlash
  · rfl

theorem tagName_append {name text : List Char}
    (noSpace : ∀ character ∈ name, isSpace character = false)
    (separated : ∀ first ∈ text.head?, isSpace first = true) : tagName (name ++ text) = name := by
  have nameKept : ∀ character ∈ name, (!isSpace character) = true := by
    intro character characterMem
    simp [noSpace character characterMem]
  rw [tagName, List.takeWhile_append_of_pos nameKept]
  cases text with
  | nil => simp
  | cons first rest => simp [separated first rfl]

namespace TagText

def spacedAttributes (tag : TagText) : List SpacedAttribute := tag.first :: tag.others

def attributes (tag : TagText) : List AttributeText :=
  tag.spacedAttributes.map SpacedAttribute.written

def body (tag : TagText) : List Char :=
  tag.name ++ (tag.spacedAttributes.flatMap SpacedAttribute.text ++ tag.after.characters)

def content (tag : TagText) (selfClosing : Bool) : List Char :=
  if selfClosing then tag.body ++ ['/'] else tag.body

/-- The names of a tag and of its attributes hold no quotes. -/
def NamesUnquoted (tag : TagText) : Prop :=
  (∀ character ∈ tag.name, isQuote character = false) ∧
    ∀ written ∈ tag.attributes, ∀ character ∈ written.key.characters, isQuote character = false

variable (tag : TagText)

/-! ## Reading -/

theorem exists_body_eq :
    ∃ space rest, isSpace space = true ∧ tag.body = tag.name ++ space :: rest := by
  rcases List.exists_cons_of_ne_nil tag.separated with ⟨space, others, beforeEq⟩
  have aSpace : isSpace space = true := by
    apply tag.first.before.isSpace_of_mem
    rw [beforeEq]
    exact List.mem_cons_self
  refine ⟨space, others ++ (tag.first.written.text ++
    (tag.others.flatMap SpacedAttribute.text ++ tag.after.characters)), aSpace, ?_⟩
  simp [body, spacedAttributes, SpacedAttribute.text, beforeEq]

theorem tagName_body : tagName tag.body = tag.name := by
  rcases tag.exists_body_eq with ⟨space, rest, aSpace, bodyEq⟩
  rw [bodyEq]
  apply tagName_append tag.no_space
  simp [aSpace]

theorem tagAttributes_body :
    tagAttributes tag.body = .ok (tag.attributes.map AttributeText.toAttribute) := by
  rw [tagAttributes, tagName_body, body, List.drop_left, spacedAttributes,
    readAttributes_texts _ tag.distinct tag.after, attributes, List.map_map]
  rfl

theorem exists_body_eq_cons : ∃ first rest, tag.body = first :: rest ∧ first ≠ '/' := by
  rcases tag.exists_body_eq with ⟨space, rest, aSpace, bodyEq⟩
  have noSlash := tag.no_slash
  cases nameEq : tag.name with
  | nil =>
      rw [nameEq] at bodyEq
      refine ⟨space, rest, bodyEq, ?_⟩
      rintro rfl
      cases aSpace
  | cons first others =>
      rw [nameEq] at bodyEq noSlash
      exact ⟨first, others ++ space :: rest, bodyEq, fun same => noSlash (congrArg some same)⟩

theorem getLast?_body : tag.body.getLast? ≠ some '/' := by
  intro slashLast
  rw [body, List.getLast?_append] at slashLast
  rcases Option.or_eq_some_iff.mp slashLast with slashLast | ⟨noText, _⟩
  · exact getLast?_texts tag.spacedAttributes tag.after slashLast
  · simp [spacedAttributes, SpacedAttribute.text, tag.separated] at noText

theorem ofContent_content (selfClosing : Bool) :
    TagRole.ofContent (tag.content selfClosing) =
      if selfClosing then .opensAndCloses tag.body else .opens tag.body := by
  have notClosing := tag.getLast?_body
  rcases tag.exists_body_eq_cons with ⟨first, rest, bodyEq, noSlash⟩
  rw [content]
  cases selfClosing with
  | false =>
      simp only [Bool.false_eq_true, if_false]
      rw [bodyEq] at notClosing ⊢
      rw [TagRole.ofContent_cons noSlash, if_neg notClosing]
  | true =>
      simp only [if_true]
      rw [bodyEq, List.cons_append, TagRole.ofContent_cons noSlash, ← List.cons_append,
        if_pos List.getLast?_concat, List.dropLast_concat]

end TagText

/-! ## Tags that are read -/

theorem TagRole.eq_of_ofContent {content body : List Char}
    (role : TagRole.ofContent content = .opens body ∨
      TagRole.ofContent content = .opensAndCloses body) :
    content.head? ≠ some '/' ∧ (content = body ∨ content = body ++ ['/']) := by
  cases content with
  | nil =>
      refine ⟨by simp, Or.inl ?_⟩
      rcases role with role | role <;> cases role
      rfl
  | cons first rest =>
      by_cases slash : first = '/'
      · subst slash
        rcases role with role | role <;> cases role
      · refine ⟨by simp [slash], ?_⟩
        rw [TagRole.ofContent_cons slash] at role
        split at role
        · next closing =>
            rcases role with role | role <;> cases role
            exact Or.inr (List.dropLast_append_getLast? '/' closing).symm
        · rcases role with role | role <;> cases role
          exact Or.inl rfl

theorem drop_tagName (body : List Char) :
    body.drop (tagName body).length = body.dropWhile fun character => !isSpace character := by
  have dropped : (tagName body ++ body.dropWhile fun character => !isSpace character).drop
      (tagName body).length = body.dropWhile fun character => !isSpace character :=
    List.drop_left
  rwa [tagName, List.takeWhile_append_dropWhile] at dropped

/-- A tag that is read with attributes is written as one. -/
theorem exists_tagText {content body : List Char} {found : List Attribute}
    (role : TagRole.ofContent content = .opens body ∨
      TagRole.ofContent content = .opensAndCloses body)
    (read : tagAttributes body = .ok found) (notEmpty : found ≠ []) :
    ∃ (tag : TagText) (selfClosing : Bool), content = tag.content selfClosing := by
  rcases TagRole.eq_of_ofContent role with ⟨noSlash, contentEq⟩
  rcases exists_of_readAttributes read with ⟨attributes, after, textEq, distinct, rfl⟩
  rcases List.exists_cons_of_ne_nil (fun noneRead => notEmpty (by rw [noneRead]; rfl) :
    attributes ≠ []) with ⟨first, others, rfl⟩
  have bodyEq : body = tagName body ++ ((first :: others).flatMap SpacedAttribute.text ++
      after.characters) := by
    rw [← textEq, drop_tagName]
    exact List.takeWhile_append_dropWhile.symm
  have separated : first.before.characters ≠ [] := by
    intro empty
    rw [drop_tagName] at textEq
    have headSpace := List.head?_dropWhile_not (fun character => !isSpace character) body
    rw [textEq] at headSpace
    simp [SpacedAttribute.text, AttributeText.text, AttributeKey.characters, empty,
      first.written.key.no_space] at headSpace
  have nameNoSlash : (tagName body).head? ≠ some '/' := by
    intro slash
    apply noSlash
    rcases List.head?_eq_some_iff.mp slash with ⟨rest, nameEq⟩
    rw [nameEq] at bodyEq
    rcases contentEq with rfl | rfl <;> rw [bodyEq] <;> rfl
  have nameNoSpace : ∀ character ∈ tagName body, isSpace character = false := by
    intro character characterMem
    simpa using List.mem_takeWhile_imp characterMem
  refine ⟨⟨tagName body, nameNoSpace, nameNoSlash, first, separated, others, distinct, after⟩, ?_⟩
  rcases contentEq with rfl | rfl
  · exact ⟨false, bodyEq⟩
  · exact ⟨true, congrArg (· ++ ['/']) bodyEq⟩

/-! ## Quotes -/

theorem quoteThrough?_of_run {position : Nat} {quote : Option Char} {content : List Char}
    {tag : RawTag} (reversed : List Char)
    (found : Scan.run position (.tag quote reversed) (content ++ ['>']) = ⟨[tag], none⟩)
    (contentEq : tag.content = reversed.reverse ++ content) :
    quoteThrough? quote content = some none := by
  induction content generalizing position quote reversed with
  | nil =>
      cases quote with
      | none => rfl
      | some opening =>
          have moved : Place.step (.tag (some opening) reversed) '>' =
              .move (.tag (quoteAfter (some opening) '>') ('>' :: reversed)) := by
            simp [Place.step]
          rw [List.nil_append, Scan.run_cons_of_move moved] at found
          simp [Scan.run] at found
  | cons first rest ih =>
      by_cases ends : quote = none ∧ first = '>'
      · have ended : Place.step (.tag quote reversed) first = .tag reversed := by
          simp only [Place.step, if_pos ends]
        rw [List.cons_append, Scan.run_cons_of_tag ended] at found
        simp only [Scan.cons, Scan.mk.injEq, List.cons.injEq] at found
        have sameContent := congrArg RawTag.content found.1.1
        rw [contentEq] at sameContent
        simp at sameContent
      · have moved : Place.step (.tag quote reversed) first =
            .move (.tag (quoteAfter quote first) (first :: reversed)) := by
          simp only [Place.step, if_neg ends]
        rw [List.cons_append, Scan.run_cons_of_move moved] at found
        rw [quoteThrough?_cons ends]
        apply ih (first :: reversed) found
        simp [contentEq]

/-- What stands between `<` and `>` is one tag if it starts like a tag and the `>` is the first one
outside quotes. -/
theorem isTag_cons_iff {first : Char} {rest : List Char} :
    IsTag (first :: rest) ↔
      first ∉ ['!', '?', '>'] ∧ quoteThrough? none (first :: rest) = some none := by
  constructor
  · intro isTag
    have opened : Place.step .text '<' = .move .opened := rfl
    rw [IsTag, scan, Scan.run_cons_of_move opened, List.cons_append] at isTag
    have noRoom : ∀ {position : Nat} {place : Place}, place.content? = none →
        Scan.run position place (rest ++ ['>']) ≠ ⟨[⟨0, first :: rest⟩], none⟩ := by
      intro position place outside found
      have firstFound : Scan.run position place (rest ++ ['>']) =
          ⟨[] ++ ⟨0, first :: rest⟩ :: [], none⟩ := found
      rcases Scan.exists_of_run firstFound with ⟨_, _, _, _, ends⟩ | ⟨before, after, holds⟩
      · exact absurd (outside.symm.trans ends.inside) (by simp)
      · have lengths := congrArg List.length holds.text_eq
        simp only [List.length_append, List.length_cons, List.length_nil] at lengths
        omega
    by_cases bang : first = '!'
    · subst bang
      exact absurd isTag (noRoom rfl)
    · by_cases question : first = '?'
      · subst question
        exact absurd isTag (noRoom rfl)
      · by_cases closing : first = '>'
        · subst closing
          have ended : Place.step .opened '>' = .tag [] := rfl
          rw [Scan.run_cons_of_tag ended] at isTag
          simp [Scan.cons] at isTag
        · have begun : Place.step .opened first = .move (.tag (quoteAfter none first) [first]) := by
            simp [Place.step, Place.stepOpened]
          rw [Scan.run_cons_of_move begun] at isTag
          refine ⟨by simp [bang, question, closing], ?_⟩
          rw [quoteThrough?_cons (fun ends => closing ends.2)]
          exact quoteThrough?_of_run [first] isTag rfl
  · rintro ⟨regular, through⟩
    exact Scan.run_text_tag regular through

/-- Characters that are no quotes do not end a tag only if no `>` is among them. -/
theorem plain_of_quoteThrough? {left right : List Char} {final : Option Char}
    (through : quoteThrough? none (left ++ right) = some final)
    (unquoted : ∀ character ∈ left, isQuote character = false) :
    (∀ character ∈ left, isQuote character = false ∧ character ≠ '>') ∧
      quoteThrough? none right = some final := by
  induction left with
  | nil => exact ⟨by simp, through⟩
  | cons first rest ih =>
      simp only [List.forall_mem_cons] at unquoted ⊢
      by_cases closing : first = '>'
      · rw [List.cons_append, quoteThrough?, List.foldlM_cons, if_pos ⟨rfl, closing⟩] at through
        cases through
      · have quoteEq : quoteAfter none first = none := by simp [quoteAfter, unquoted.1]
        rw [List.cons_append, quoteThrough?_cons (fun ends => closing ends.2), quoteEq] at through
        rcases ih through unquoted.2 with ⟨restPlain, rightThrough⟩
        exact ⟨⟨⟨unquoted.1, closing⟩, restPlain⟩, rightThrough⟩

theorem quoteThrough?_space (space : Space) : quoteThrough? none space.characters = some none := by
  apply quoteThrough?_of_plain
  intro character characterMem
  have regular := Space.not_of_mem characterMem
  refine ⟨regular.1, ?_⟩
  rintro rfl
  simp at regular

theorem AttributeText.quoteThrough?_text {written : AttributeText}
    (plain : ∀ character ∈ written.key.characters, isQuote character = false ∧ character ≠ '>') :
    quoteThrough? none written.text = some none := by
  rw [AttributeText.text, quoteThrough?_append (quoteThrough?_of_plain plain),
    quoteThrough?_append (quoteThrough?_space _), quoteThrough?_cons (by simp)]
  change quoteThrough? none _ = _
  rw [quoteThrough?_append (quoteThrough?_space _)]
  exact quoteThrough?_quoted written.isQuote_quote written.absent

/-- No key of some attributes holds quotes or a `>`. -/
def KeysPlain (attributes : List AttributeText) : Prop :=
  ∀ written ∈ attributes, ∀ character ∈ written.key.characters,
    isQuote character = false ∧ character ≠ '>'

theorem quoteThrough?_texts {spaced : List SpacedAttribute}
    (plain : KeysPlain (spaced.map SpacedAttribute.written)) :
    quoteThrough? none (spaced.flatMap SpacedAttribute.text) = some none := by
  induction spaced with
  | nil => rfl
  | cons first rest ih =>
      simp only [KeysPlain, List.map_cons, List.forall_mem_cons] at plain
      rw [List.flatMap_cons, SpacedAttribute.text, List.append_assoc,
        quoteThrough?_append (quoteThrough?_space _),
        quoteThrough?_append (AttributeText.quoteThrough?_text plain.1)]
      exact ih plain.2

theorem keysPlain_of_quoteThrough? {spaced : List SpacedAttribute} {rest : List Char}
    {final : Option Char}
    (through : quoteThrough? none (spaced.flatMap SpacedAttribute.text ++ rest) = some final)
    (unquoted : ∀ written ∈ spaced.map SpacedAttribute.written,
      ∀ character ∈ written.key.characters, isQuote character = false) :
    KeysPlain (spaced.map SpacedAttribute.written) := by
  induction spaced with
  | nil => simp [KeysPlain]
  | cons first others ih =>
      simp only [KeysPlain, List.map_cons, List.forall_mem_cons] at unquoted ⊢
      rw [List.flatMap_cons, SpacedAttribute.text, List.append_assoc, List.append_assoc,
        quoteThrough?_append (quoteThrough?_space _)] at through
      have keyPlain : ∀ character ∈ first.written.key.characters,
          isQuote character = false ∧ character ≠ '>' := by
        rw [AttributeText.text, List.append_assoc] at through
        exact (plain_of_quoteThrough? through unquoted.1).1
      rw [quoteThrough?_append (AttributeText.quoteThrough?_text keyPlain)] at through
      exact ⟨keyPlain, ih through unquoted.2⟩

theorem exists_of_quoteThrough?_append {quote final : Option Char} {left right : List Char}
    (through : quoteThrough? quote (left ++ right) = some final) :
    ∃ middle, quoteThrough? quote left = some middle := by
  rw [quoteThrough?, List.foldlM_append] at through
  rcases Option.bind_eq_some_iff.mp through with ⟨middle, leftThrough, _⟩
  exact ⟨middle, leftThrough⟩

namespace TagText

variable {tag other : TagText} {selfClosing : Bool}

theorem exists_content_eq (tag : TagText) (selfClosing : Bool) :
    ∃ ending, tag.content selfClosing = tag.body ++ ending ∧
      quoteThrough? none ending = some none := by
  cases selfClosing with
  | true => exact ⟨['/'], rfl, rfl⟩
  | false => exact ⟨[], (List.append_nil tag.body).symm, rfl⟩

/-- Without quotes in its names, a tag stays one tag in any order of its attributes. -/
theorem isTag_of_perm (unquoted : tag.NamesUnquoted) (nameEq : other.name = tag.name)
    (reordered : other.attributes.Perm tag.attributes) (isTag : IsTag (tag.content selfClosing)) :
    IsTag (other.content selfClosing) := by
  rcases tag.exists_content_eq selfClosing with ⟨ending, contentEq, endingThrough⟩
  rcases other.exists_content_eq selfClosing with ⟨otherEnding, otherContentEq, otherEndingThrough⟩
  rcases tag.exists_body_eq_cons with ⟨first, rest, bodyEq, _⟩
  rcases other.exists_body_eq_cons with ⟨otherFirst, otherRest, otherBodyEq, _⟩
  rw [contentEq, bodyEq, List.cons_append, isTag_cons_iff, ← List.cons_append, ← bodyEq] at isTag
  rcases isTag with ⟨regular, through⟩
  have otherRegular : otherFirst ∉ ['!', '?', '>'] := by
    rcases other.exists_body_eq with ⟨space, texts, aSpace, spacedEq⟩
    rw [otherBodyEq, nameEq] at spacedEq
    cases nameEq : tag.name with
    | nil =>
        rw [nameEq, List.nil_append, List.cons.injEq] at spacedEq
        rw [spacedEq.1]
        intro spaceMem
        simp only [List.mem_cons, List.not_mem_nil, or_false] at spaceMem
        rcases spaceMem with rfl | rfl | rfl <;> cases aSpace
    | cons letter letters =>
        rw [body, nameEq, List.cons_append, List.cons.injEq] at bodyEq
        rw [nameEq, List.cons_append, List.cons.injEq] at spacedEq
        rw [spacedEq.1, bodyEq.1]
        exact regular
  rcases exists_of_quoteThrough?_append through with ⟨middle, bodyThrough⟩
  rcases plain_of_quoteThrough? bodyThrough unquoted.1 with ⟨namePlain, textsThrough⟩
  have keysPlain : KeysPlain tag.attributes := keysPlain_of_quoteThrough? textsThrough unquoted.2
  have otherKeysPlain : KeysPlain other.attributes :=
    fun written writtenMem => keysPlain written (reordered.mem_iff.mp writtenMem)
  have otherThrough : quoteThrough? none other.body = some none := by
    rw [body, nameEq, quoteThrough?_append (quoteThrough?_of_plain namePlain),
      quoteThrough?_append (quoteThrough?_texts otherKeysPlain)]
    exact quoteThrough?_space other.after
  rw [otherContentEq, otherBodyEq, List.cons_append, isTag_cons_iff, ← List.cons_append,
    ← otherBodyEq]
  exact ⟨otherRegular, by rw [quoteThrough?_append otherThrough, otherEndingThrough]⟩

end TagText

end Markup

end TikzGlyph
