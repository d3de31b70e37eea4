import Mathlib.Data.List.Forall2
import TikzGlyph.Proofs.Markup.TagText

/-!
# Texts in parts

Every text without a fault is cut into tags and the texts between them. Two texts whose parts agree
but for the attributes of some tags have events that agree but for these attributes and for
positions.
-/

namespace TikzGlyph

namespace Markup

/-- A part of a text: characters outside all tags, a tag without attributes, or a tag with some. -/
inductive Part
  | between (text : List Char) (tagless : scan text = ⟨[], none⟩)
  | bare (content : List Char) (isTag : IsTag content)
      (without : ∀ body, TagRole.ofContent content = .opens body ∨
        TagRole.ofContent content = .opensAndCloses body → tagAttributes body = .ok [])
  | element (tag : TagText) (selfClosing : Bool) (isTag : IsTag (tag.content selfClosing))

namespace Part

def text : Part → List Char
  | .between text _ => text
  | .bare content _ _ => '<' :: (content ++ ['>'])
  | .element tag selfClosing _ => '<' :: (tag.content selfClosing ++ ['>'])

def textOfAll (parts : List Part) : List Char := parts.flatMap text

/-- Two parts agree but for the attributes of a tag, which are alike. -/
inductive Like (alike : List Char → List Attribute → List Attribute → Prop) : Part → Part → Prop
  | same (part : Part) : Like alike part part
  | element {tag other : TagText} {selfClosing : Bool} {isTag : IsTag (tag.content selfClosing)}
      {otherIsTag : IsTag (other.content selfClosing)} (nameEq : other.name = tag.name)
      (attributesAlike : alike tag.name (tag.attributes.map AttributeText.toAttribute)
        (other.attributes.map AttributeText.toAttribute)) :
      Like alike (.element tag selfClosing isTag) (.element other selfClosing otherIsTag)

end Part

/-- Two events agree but for their positions and for attributes that are alike. -/
def Event.Like (alike : List Char → List Attribute → List Attribute → Prop) : Event → Event → Prop
  | .opening name attributes _, .opening other others _ =>
      name = other ∧ alike name attributes others
  | .closing name _, .closing other _ => name = other
  | _, _ => False

variable {alike : List Char → List Attribute → List Attribute → Prop}
  {openNames : List (List Char)} {position : Nat} {text content rest : List Char}

/-! ## One part -/

theorem run_eq_of_tagless (tagless : Scan.run position .text text = ⟨[], none⟩) (other : Nat) :
    Scan.run other .text text = ⟨[], none⟩ := by
  rcases Scan.contents_run other position .text text with ⟨contentsEq, failureEq⟩
  rcases found : Scan.run other .text text with ⟨tags, failure⟩
  rw [tagless, found] at contentsEq failureEq
  have noTags : tags = [] := List.map_eq_nil_iff.mp contentsEq
  rw [noTags, show failure = none from failureEq]

theorem eventsFrom_between (tagless : scan text = ⟨[], none⟩) :
    eventsFrom openNames position (text ++ rest) =
      eventsFrom openNames (position + byteLength text) rest := by
  have noTags : Scan.run position .text text = ⟨[], none⟩ := run_eq_of_tagless tagless position
  simp only [eventsFrom]
  rw [Scan.run_append (by rw [noTags]), noTags]
  rfl

/-- After a tag come the events of the text after it, read with the elements open after the tag. -/
theorem exists_eventsFrom_isTag (isTag : IsTag content) (position : Nat) (rest : List Char) :
    ∃ start after, ∀ openNames,
      (∀ cause, tagEvents openNames ⟨start, content⟩ = .error cause →
        eventsFrom openNames position ('<' :: (content ++ ['>']) ++ rest) = ⟨[], some cause⟩) ∧
      ∀ events next, tagEvents openNames ⟨start, content⟩ = .ok (events, next) →
        eventsFrom openNames position ('<' :: (content ++ ['>']) ++ rest) =
          (eventsFrom next after rest).prepend events := by
  rcases Scan.contents_run position 0 .text ('<' :: (content ++ ['>'])) with
    ⟨contentsEq, failureEq⟩
  change _ = (scan ('<' :: (content ++ ['>']))).tags.map RawTag.content at contentsEq
  change _ = (scan ('<' :: (content ++ ['>']))).failure at failureEq
  rw [isTag] at contentsEq failureEq
  rcases List.map_eq_singleton_iff.mp contentsEq with ⟨⟨start, same⟩, tagsEq, rfl⟩
  refine ⟨start, position + byteLength ('<' :: (same ++ ['>'])), ?_⟩
  intro openNames
  simp only [eventsFrom, Scan.run_append failureEq, tagsEq]
  constructor
  · intro cause failed
    exact Scan.trace_cons_of_error failed
  · intro events next read
    exact Scan.trace_cons_of_ok read

theorem exists_of_eventsFrom_isTag (isTag : IsTag content)
    (accepted :
      (eventsFrom openNames position ('<' :: (content ++ ['>']) ++ rest)).failure = none) :
    ∃ start after events next, tagEvents openNames ⟨start, content⟩ = .ok (events, next) ∧
      eventsFrom openNames position ('<' :: (content ++ ['>']) ++ rest) =
        (eventsFrom next after rest).prepend events := by
  rcases exists_eventsFrom_isTag isTag position rest with ⟨start, after, continued⟩
  cases read : tagEvents openNames ⟨start, content⟩ with
  | error cause =>
      rw [(continued openNames).1 cause read] at accepted
      cases accepted
  | ok result =>
      rcases result with ⟨events, next⟩
      exact ⟨start, after, events, next, read, (continued openNames).2 events next read⟩

/-! ## Cutting a text -/

theorem exists_part_of_isTag (isTag : IsTag content) {events : List Event}
    {next : List (List Char)}
    (read : tagEvents openNames ⟨position, content⟩ = .ok (events, next)) :
    ∃ part : Part, part.text = '<' :: (content ++ ['>']) := by
  by_cases withAttributes : ∃ body found, (TagRole.ofContent content = .opens body ∨
      TagRole.ofContent content = .opensAndCloses body) ∧
      tagAttributes body = .ok found ∧ found ≠ []
  · rcases withAttributes with ⟨body, found, role, attributesRead, notEmpty⟩
    rcases exists_tagText role attributesRead notEmpty with ⟨tag, selfClosing, rfl⟩
    exact ⟨.element tag selfClosing isTag, rfl⟩
  · refine ⟨.bare content isTag ?_, rfl⟩
    intro body role
    have bodyRead : ∃ found, tagAttributes body = .ok found := by
      cases tagReads_of_tagEvents read with
      | opens ownRole attributesRead | opensAndCloses ownRole attributesRead =>
          rw [ownRole] at role
          rcases role with ⟨⟨⟩⟩ | ⟨⟨⟩⟩
          exact ⟨_, attributesRead⟩
      | closes ownRole closed =>
          rw [ownRole] at role
          rcases role with ⟨⟨⟩⟩ | ⟨⟨⟩⟩
    rcases bodyRead with ⟨found, attributesRead⟩
    by_cases empty : found = []
    · rw [attributesRead, empty]
    · exact absurd ⟨body, found, role, attributesRead, empty⟩ withAttributes

/-- Every text without a fault is cut into parts. -/
theorem exists_parts (accepted : (eventsFrom openNames position text).failure = none) :
    ∃ parts, Part.textOfAll parts = text := by
  induction length_eq : text.length using Nat.strongRecOn generalizing openNames position text with
  | ind length ih =>
      rcases found : Scan.run position .text text with ⟨tags, failure⟩
      cases tags with
      | nil =>
          have tagless : scan text = ⟨[], none⟩ := by
            simp only [eventsFrom, found] at accepted
            have noFailure : failure = none := accepted
            rw [noFailure] at found
            exact run_eq_of_tagless found 0
          exact ⟨[.between text tagless], by simp [Part.textOfAll, Part.text]⟩
      | cons tag later =>
          have firstFound : Scan.run position .text text = ⟨[] ++ tag :: later, failure⟩ := found
          rcases Scan.exists_of_run_text firstFound with
            ⟨before, after, rfl, _, beforeRun, isTag⟩
          have tagless : scan before = ⟨[], none⟩ := run_eq_of_tagless beforeRun 0
          have textEq : before ++ '<' :: (tag.content ++ '>' :: after) =
              before ++ ('<' :: (tag.content ++ ['>']) ++ after) := by simp
          rw [textEq, eventsFrom_between tagless] at accepted
          rcases exists_of_eventsFrom_isTag isTag accepted with
            ⟨start, afterPosition, events, next, read, continued⟩
          rw [continued] at accepted
          rcases exists_part_of_isTag isTag read with ⟨part, partEq⟩
          have shorter : after.length < length := by
            rw [← length_eq]
            simp
            omega
          rcases ih after.length shorter accepted rfl with ⟨parts, partsEq⟩
          refine ⟨.between before tagless :: part :: parts, ?_⟩
          rw [textEq, ← partEq, ← partsEq]
          simp [Part.textOfAll, Part.text]

/-! ## Texts that agree -/

theorem Event.like_of_placedAt_eq (reflexive : ∀ name attributes, alike name attributes attributes)
    {event other : Event} (same : event.placedAt 0 = other.placedAt 0) :
    event.Like alike other := by
  cases event with
  | opening name attributes place =>
      cases other with
      | opening otherName others otherPlace =>
          cases same
          exact ⟨rfl, reflexive name attributes⟩
      | closing otherName otherPlace => cases same
  | closing name place =>
      cases other with
      | opening otherName others otherPlace => cases same
      | closing otherName otherPlace =>
          cases same
          exact rfl

/-- Whatever elements are open, two tags have events that agree and leave the same elements open. -/
def ContentsAgree (alike : List Char → List Attribute → List Attribute → Prop)
    (content other : List Char) : Prop :=
  ∀ openNames position start events next,
    tagEvents openNames ⟨position, content⟩ = .ok (events, next) →
    ∃ others, tagEvents openNames ⟨start, other⟩ = .ok (others, next) ∧
      List.Forall₂ (Event.Like alike) events others

theorem contentsAgree_self (reflexive : ∀ name attributes, alike name attributes attributes)
    (content : List Char) : ContentsAgree alike content content := by
  intro openNames position start events next read
  have sameContent : (RawTag.mk start content).content = (RawTag.mk position content).content := rfl
  rcases exists_tagEvents_append read sameContent [] with ⟨others, othersRead, othersEq⟩
  rw [List.append_nil, List.append_nil] at othersRead
  refine ⟨others, othersRead, ?_⟩
  rw [← List.forall₂_eq_eq_eq, List.forall₂_map_left_iff, List.forall₂_map_right_iff] at othersEq
  apply List.Forall₂.imp _ othersEq.flip
  intro event other same
  exact Event.like_of_placedAt_eq reflexive same.symm

theorem TagText.contentsAgree {tag other : TagText} (nameEq : other.name = tag.name)
    (attributesAlike : alike tag.name (tag.attributes.map AttributeText.toAttribute)
      (other.attributes.map AttributeText.toAttribute)) (selfClosing : Bool) :
    ContentsAgree alike (tag.content selfClosing) (other.content selfClosing) := by
  have tagEventsContent : ∀ (tag : TagText) (openNames : List (List Char)) (position : Nat),
      tagEvents openNames ⟨position, tag.content selfClosing⟩ =
        .ok (.opening tag.name (tag.attributes.map AttributeText.toAttribute) position ::
            (if selfClosing then [.closing tag.name position] else []),
          if selfClosing then openNames else tag.name :: openNames) := by
    intro tag openNames position
    rw [tagEvents, tag.ofContent_content]
    cases selfClosing <;> simp [openingEvent, tag.tagAttributes_body, tag.tagName_body, Except.map]
  intro openNames position start events next read
  rw [tagEventsContent] at read ⊢
  rw [nameEq]
  cases read
  refine ⟨_, rfl, .cons ⟨rfl, attributesAlike⟩ ?_⟩
  cases selfClosing with
  | true => exact .cons rfl .nil
  | false => exact .nil

theorem forall₂_eventsFrom_isTag {other others : List Char} (isTag : IsTag content)
    (otherIsTag : IsTag other) (agree : ContentsAgree alike content other)
    (restAgrees : ∀ openNames position start, (eventsFrom openNames position rest).failure = none →
      (eventsFrom openNames start others).failure = none ∧
        List.Forall₂ (Event.Like alike) (eventsFrom openNames position rest).events
          (eventsFrom openNames start others).events)
    (accepted : (eventsFrom openNames position ('<' :: (content ++ ['>']) ++ rest)).failure = none)
    (start : Nat) :
    (eventsFrom openNames start ('<' :: (other ++ ['>']) ++ others)).failure = none ∧
      List.Forall₂ (Event.Like alike)
        (eventsFrom openNames position ('<' :: (content ++ ['>']) ++ rest)).events
        (eventsFrom openNames start ('<' :: (other ++ ['>']) ++ others)).events := by
  rcases exists_of_eventsFrom_isTag isTag accepted with
    ⟨place, after, events, next, read, continued⟩
  rcases exists_eventsFrom_isTag otherIsTag start others with
    ⟨otherPlace, otherAfter, otherContinued⟩
  rcases agree openNames place otherPlace events next read with
    ⟨otherEvents, otherRead, eventsAgree⟩
  rw [continued] at accepted ⊢
  rw [(otherContinued openNames).2 otherEvents next otherRead]
  rcases restAgrees next after otherAfter accepted with ⟨othersAccepted, othersAgree⟩
  exact ⟨othersAccepted, List.rel_append eventsAgree othersAgree⟩

/-- Texts whose parts agree have events that agree, wherever the texts start. -/
theorem forall₂_eventsFrom (reflexive : ∀ name attributes, alike name attributes attributes)
    {parts others : List Part} (agree : List.Forall₂ (Part.Like alike) parts others)
    (accepted : (eventsFrom openNames position (Part.textOfAll parts)).failure = none)
    (start : Nat) :
    (eventsFrom openNames start (Part.textOfAll others)).failure = none ∧
      List.Forall₂ (Event.Like alike) (eventsFrom openNames position (Part.textOfAll parts)).events
        (eventsFrom openNames start (Part.textOfAll others)).events := by
  induction agree generalizing openNames position start with
  | nil => exact ⟨rfl, .nil⟩
  | @cons part other parts others partAgrees _ ih =>
      have restAgrees : ∀ openNames position start,
          (eventsFrom openNames position (Part.textOfAll parts)).failure = none →
          (eventsFrom openNames start (Part.textOfAll others)).failure = none ∧
            List.Forall₂ (Event.Like alike)
              (eventsFrom openNames position (Part.textOfAll parts)).events
              (eventsFrom openNames start (Part.textOfAll others)).events :=
        fun _ _ start restAccepted => ih restAccepted start
      change (eventsFrom openNames position (part.text ++ Part.textOfAll parts)).failure = none
        at accepted
      change (eventsFrom openNames start (other.text ++ Part.textOfAll others)).failure = none ∧
        List.Forall₂ (Event.Like alike)
          (eventsFrom openNames position (part.text ++ Part.textOfAll parts)).events
          (eventsFrom openNames start (other.text ++ Part.textOfAll others)).events
      cases partAgrees with
      | same =>
          cases part with
          | between text tagless =>
              simp only [Part.text] at accepted ⊢
              rw [eventsFrom_between tagless] at accepted ⊢
              rw [eventsFrom_between tagless]
              exact restAgrees _ _ _ accepted
          | bare content isTag without =>
              exact forall₂_eventsFrom_isTag isTag isTag (contentsAgree_self reflexive content)
                restAgrees accepted start
          | element tag selfClosing isTag =>
              exact forall₂_eventsFrom_isTag isTag isTag (contentsAgree_self reflexive _)
                restAgrees accepted start
      | @element tag other selfClosing isTag otherIsTag nameEq attributesAlike =>
          exact forall₂_eventsFrom_isTag isTag otherIsTag
            (TagText.contentsAgree nameEq attributesAlike selfClosing) restAgrees accepted start

end Markup

end TikzGlyph
