import TikzGlyph.Proofs.Markup.Continuation

/-!
# Where tags stand

Every tag that a scan finds stands in the text at its position, and the text before it ends outside
all markup, with the earlier tags in it. The same holds of events: each one is due to a tag that
stands in the text, and the text before that tag has the events of the earlier tags.
-/

namespace TikzGlyph

namespace Markup

/-- The content so far of the tag that a place is inside of. -/
def Place.content? : Place → Option (List Char)
  | .opened => some []
  | .tag _ reversed => some reversed.reverse
  | _ => none

/-- The advance leads into no tag and ends none. -/
def Advance.AvoidsTags : Advance → Prop
  | .move next => next.content? = none
  | .tag _ => False
  | .fail _ => True

/-- What stands between `<` and `>` is found as one tag. -/
def IsTag (content : List Char) : Prop :=
  scan ('<' :: (content ++ ['>'])) = ⟨[⟨0, content⟩], none⟩

instance (content : List Char) : Decidable (IsTag content) :=
  inferInstanceAs (Decidable (scan _ = _))

/-! ## One character -/

namespace Place

variable {place next : Place} {character : Char} {reversed begun : List Char}

theorem avoidsTags_stepBang (character : Char) : (stepBang character).AvoidsTags := by
  unfold stepBang
  split
  · rfl
  · rfl
  · split
    · rfl
    · exact trivial

theorem avoidsTags_stepDoctype (quote : Option Char) (named : Bool) (character : Char) :
    (stepDoctype quote named character).AvoidsTags := by
  cases quote with
  | some opening => rfl
  | none =>
      simp only [stepDoctype]
      split
      · split
        · rfl
        · exact trivial
      · split <;> rfl

theorem avoidsTags_stepInstruction (beginning : List Char) (question : Bool) (character : Char) :
    (stepInstruction beginning question character).AvoidsTags := by
  unfold stepInstruction
  split
  · split
    · exact trivial
    · rfl
  · rfl

/-- Outside tags the only way into one is a `<` in character data. -/
theorem avoidsTags_step (outside : place.content? = none)
    (noOpening : ¬ (place = .text ∧ character = '<')) : (place.step character).AvoidsTags := by
  cases place with
  | opened => cases outside
  | tag quote reversed => cases outside
  | text =>
      have noTag : character ≠ '<' := fun same => noOpening ⟨rfl, same⟩
      simp only [step, if_neg noTag]
      split <;> rfl
  | reference =>
      simp only [step]
      split
      · rfl
      · split
        · exact trivial
        · rfl
  | bang => exact avoidsTags_stepBang character
  | dash =>
      simp only [step]
      split
      · rfl
      · exact trivial
  | comment dashes =>
      simp only [step]
      split <;> rfl
  | cdataOpening missing =>
      cases missing with
      | nil => rfl
      | cons expected missing =>
          simp only [step]
          split
          · simp only [Advance.AvoidsTags]
            split <;> rfl
          · exact trivial
  | cdata brackets =>
      simp only [step]
      split <;> rfl
  | doctypeOpening missing =>
      cases missing with
      | nil => exact avoidsTags_stepDoctype none false character
      | cons expected missing =>
          simp only [step]
          split
          · simp only [Advance.AvoidsTags]
            split <;> rfl
          · exact trivial
  | doctype quote named => exact avoidsTags_stepDoctype quote named character
  | subset place =>
      simp only [step]
      split <;> rfl
  | afterSubset =>
      simp only [step, Advance.AvoidsTags]
      split <;> rfl
  | instruction beginning question =>
      exact avoidsTags_stepInstruction beginning question character

/-- Within a tag a character goes into its content or ends it, or shows right after `<` that the
markup is no tag. -/
theorem step_cases_of_content? (inside : place.content? = some begun) (character : Char) :
    (∃ next, place.step character = .move next ∧
        (next.content? = none ∨ next.content? = some (begun ++ [character]))) ∨
      (character = '>' ∧
        ∃ reversed, place.step character = .tag reversed ∧ reversed.reverse = begun) := by
  cases place with
  | opened =>
      cases inside
      simp only [step, stepOpened]
      split
      · exact Or.inl ⟨_, rfl, Or.inl rfl⟩
      · exact Or.inl ⟨_, rfl, Or.inl rfl⟩
      · exact Or.inr ⟨rfl, [], rfl, rfl⟩
      · exact Or.inl ⟨_, rfl, Or.inr rfl⟩
  | tag quote reversed =>
      cases inside
      simp only [step]
      split
      · next ends => exact Or.inr ⟨ends.2, reversed, rfl, rfl⟩
      · exact Or.inl ⟨_, rfl, Or.inr (congrArg some List.reverse_cons)⟩
  | _ => cases inside

theorem move_cases (moved : place.step character = .move next) :
    next.content? = none ∨ (place = .text ∧ character = '<' ∧ next = .opened) ∨
      ∃ begun, place.content? = some begun ∧ next.content? = some (begun ++ [character]) := by
  by_cases opening : place = .text ∧ character = '<'
  · rcases opening with ⟨rfl, rfl⟩
    cases moved
    exact Or.inr (Or.inl ⟨rfl, rfl, rfl⟩)
  · cases inside : place.content? with
    | none =>
        have avoids := avoidsTags_step inside opening
        rw [moved] at avoids
        exact Or.inl avoids
    | some begun =>
        rcases step_cases_of_content? inside character with
          ⟨other, otherMoved, nextInside⟩ | ⟨_, reversed, ended, _⟩
        · rw [moved] at otherMoved
          cases otherMoved
          exact nextInside.imp_right fun grown => Or.inr ⟨begun, rfl, grown⟩
        · rw [moved] at ended
          cases ended

theorem tag_cases (ended : place.step character = .tag reversed) :
    character = '>' ∧ place.content? = some reversed.reverse := by
  by_cases opening : place = .text ∧ character = '<'
  · rcases opening with ⟨rfl, rfl⟩
    cases ended
  · cases inside : place.content? with
    | none =>
        have avoids := avoidsTags_step inside opening
        rw [ended] at avoids
        exact absurd avoids id
    | some begun =>
        rcases step_cases_of_content? inside character with
          ⟨other, otherMoved, _⟩ | ⟨closing, other, otherEnded, rfl⟩
        · rw [ended] at otherMoved
          cases otherMoved
        · rw [ended] at otherEnded
          cases otherEnded
          exact ⟨closing, rfl⟩

end Place

/-! ## All characters -/

namespace Scan

variable {position : Nat} {place next : Place} {first : Char} {reversed : List Char}
  {text begun rest before after : List Char} {earlier later : List RawTag} {tag : RawTag}
  {failure : Option Error}

/-- A tag begun before a text ends in it, and up to its end nothing else is found. -/
structure EndsTag (position : Nat) (place : Place) (text : List Char) (tag : RawTag)
    (begun rest after : List Char) : Prop where
  inside : place.content? = some begun
  text_eq : text = rest ++ '>' :: after
  content_eq : tag.content = begun ++ rest
  position_eq : tag.position = position - byteLength begun - 1
  run_eq : run position place (rest ++ ['>']) = ⟨[tag], none⟩

/-- A tag stands in a text, after a text in which the earlier tags are found. -/
structure HoldsTag (position : Nat) (place : Place) (text : List Char) (earlier : List RawTag)
    (tag : RawTag) (before after : List Char) : Prop where
  text_eq : text = before ++ '<' :: (tag.content ++ '>' :: after)
  position_eq : tag.position = position + byteLength before
  before_run : run position place before = ⟨earlier, none⟩
  tag_run : run tag.position .text ('<' :: (tag.content ++ ['>'])) = ⟨[tag], none⟩

theorem endsTag_of_tag (ended : place.step '>' = .tag reversed)
    (inside : place.content? = some reversed.reverse) :
    EndsTag position place ('>' :: after)
      ⟨position - byteLength reversed.reverse - 1, reversed.reverse⟩ reversed.reverse [] after where
  inside := inside
  text_eq := rfl
  content_eq := (List.append_nil _).symm
  position_eq := rfl
  run_eq := by
    rw [List.nil_append, run_cons_of_tag ended]
    rfl

theorem EndsTag.cons (ends : EndsTag (position + first.utf8Size) next text tag (begun ++ [first])
      rest after)
    (moved : place.step first = .move next) (inside : place.content? = some begun) :
    EndsTag position place (first :: text) tag begun (first :: rest) after where
  inside := inside
  text_eq := congrArg (first :: ·) ends.text_eq
  content_eq := by
    rw [ends.content_eq, List.append_assoc]
    rfl
  position_eq := by
    rw [ends.position_eq, byteLength_append]
    simp only [byteLength_cons, byteLength_nil]
    omega
  run_eq := by
    rw [List.cons_append, run_cons_of_move moved]
    exact ends.run_eq

/-- The `<` in front of a tag. -/
theorem EndsTag.holdsTag (ends : EndsTag (position + ('<').utf8Size) .opened text tag begun rest
      after) :
    HoldsTag position .text ('<' :: text) [] tag [] after := by
  rcases ends with ⟨inside, textEq, contentEq, positionEq, tagRun⟩
  cases inside
  rw [List.nil_append] at contentEq
  subst contentEq
  have startsHere : tag.position = position := positionEq
  refine ⟨congrArg ('<' :: ·) textEq, startsHere, rfl, ?_⟩
  have opened : Place.step .text '<' = .move .opened := rfl
  rw [startsHere, run_cons_of_move opened]
  exact tagRun

theorem HoldsTag.cons_of_move
    (holds : HoldsTag (position + first.utf8Size) next text earlier tag before after)
    (moved : place.step first = .move next) :
    HoldsTag position place (first :: text) earlier tag (first :: before) after where
  text_eq := congrArg (first :: ·) holds.text_eq
  position_eq := by rw [holds.position_eq, byteLength_cons, Nat.add_assoc]
  before_run := by
    rw [run_cons_of_move moved]
    exact holds.before_run
  tag_run := holds.tag_run

theorem HoldsTag.cons_of_tag
    (holds : HoldsTag (position + first.utf8Size) .text text earlier tag before after)
    (ended : place.step first = .tag reversed) :
    HoldsTag position place (first :: text)
      (⟨position - byteLength reversed.reverse - 1, reversed.reverse⟩ :: earlier) tag
      (first :: before) after where
  text_eq := congrArg (first :: ·) holds.text_eq
  position_eq := by rw [holds.position_eq, byteLength_cons, Nat.add_assoc]
  before_run := by
    rw [run_cons_of_tag ended, holds.before_run]
    rfl
  tag_run := holds.tag_run

theorem not_endsTag_text : ¬ EndsTag position .text text tag begun rest after := by
  intro ends
  cases ends.inside

/-- A tag that a scan finds has begun before the text and is the first to end in it, or it stands in
the text. -/
theorem exists_of_run (found : run position place text = ⟨earlier ++ tag :: later, failure⟩) :
    (earlier = [] ∧ ∃ begun rest after, EndsTag position place text tag begun rest after) ∨
      ∃ before after, HoldsTag position place text earlier tag before after := by
  induction text generalizing position place earlier with
  | nil => simp [run] at found
  | cons first others ih =>
      cases step : place.step first with
      | move next =>
          rw [run_cons_of_move step] at found
          rcases ih found with ⟨rfl, begun, rest, after, ends⟩ | ⟨before, after, holds⟩
          · rcases Place.move_cases step with outside | ⟨rfl, rfl, rfl⟩ | ⟨old, oldInside, grown⟩
            · exact absurd (outside.symm.trans ends.inside) (by simp)
            · exact Or.inr ⟨[], after, ends.holdsTag⟩
            · have begunEq : begun = old ++ [first] :=
                Option.some.inj (ends.inside.symm.trans grown)
              subst begunEq
              exact Or.inl ⟨rfl, old, first :: rest, after, ends.cons step oldInside⟩
          · exact Or.inr ⟨first :: before, after, holds.cons_of_move step⟩
      | tag reversed =>
          rw [run_cons_of_tag step] at found
          rcases Place.tag_cases step with ⟨rfl, inside⟩
          cases earlier with
          | nil =>
              simp only [cons, List.nil_append, Scan.mk.injEq, List.cons.injEq] at found
              rcases found with ⟨⟨rfl, _⟩, _⟩
              exact Or.inl ⟨rfl, _, _, _, endsTag_of_tag step inside⟩
          | cons ended earlier =>
              simp only [cons, List.cons_append, Scan.mk.injEq, List.cons.injEq] at found
              rcases found with ⟨⟨rfl, tagsEq⟩, failureEq⟩
              have othersFound : run (position + ('>').utf8Size) .text others =
                  ⟨earlier ++ tag :: later, failure⟩ := by
                rw [← tagsEq, ← failureEq]
              rcases ih othersFound with ⟨_, _, _, _, ends⟩ | ⟨before, after, holds⟩
              · exact absurd ends not_endsTag_text
              · exact Or.inr ⟨'>' :: before, after, holds.cons_of_tag step⟩
      | fail cause =>
          rw [run_cons_of_fail step] at found
          simp at found

/-- The offset of a text does not matter for what stands in it. -/
theorem isTag_of_run {content : List Char}
    (found : run position .text ('<' :: (content ++ ['>'])) = ⟨[tag], none⟩)
    (contentEq : tag.content = content) : IsTag content := by
  rcases contents_run 0 position .text ('<' :: (content ++ ['>'])) with ⟨contentsEq, failureEq⟩
  rw [found] at contentsEq failureEq
  rcases scanned : run 0 .text ('<' :: (content ++ ['>'])) with ⟨tags, failure⟩
  rw [scanned] at contentsEq failureEq
  simp only [List.map_cons, List.map_nil, contentEq] at contentsEq failureEq
  rcases List.map_eq_singleton_iff.mp contentsEq with ⟨⟨start, same⟩, rfl, rfl⟩
  subst failureEq
  have onlyTag : run 0 .text ('<' :: (same ++ ['>'])) = ⟨[] ++ ⟨start, same⟩ :: [], none⟩ := scanned
  rcases exists_of_run onlyTag with ⟨_, _, _, _, ends⟩ | ⟨before, after, holds⟩
  · exact absurd ends not_endsTag_text
  · have lengths := congrArg List.length holds.text_eq
    simp only [List.length_cons, List.length_append, List.length_nil] at lengths
    have nothingBefore : before = [] := List.eq_nil_of_length_eq_zero (by omega)
    subst nothingBefore
    have startsAtZero : start = 0 := holds.position_eq
    subst startsAtZero
    exact scanned

/-- A tag that is found in a text stands there, and the text before it has the earlier tags. -/
theorem exists_of_run_text (found : run position .text text = ⟨earlier ++ tag :: later, failure⟩) :
    ∃ before after, text = before ++ '<' :: (tag.content ++ '>' :: after) ∧
        tag.position = position + byteLength before ∧
        run position .text before = ⟨earlier, none⟩ ∧ IsTag tag.content := by
  rcases exists_of_run found with ⟨_, _, _, _, ends⟩ | ⟨before, after, holds⟩
  · exact absurd ends not_endsTag_text
  · exact ⟨before, after, holds.text_eq, holds.position_eq, holds.before_run,
      isTag_of_run holds.tag_run rfl⟩

/-! ## Events -/

section Events

variable {openNames next : List (List Char)} {tags others : List RawTag}
  {known events ownLater following : List Event} {event : Event}

/-- One of some tags has an event among its own, and the tags before it have no fault. -/
def HasEvent (openNames : List (List Char)) (tags : List RawTag) (earlier : List Event)
    (event : Event) : Prop :=
  ∃ tagsBefore tag tagsAfter known own names ownLater next,
    tags = tagsBefore ++ tag :: tagsAfter ∧ trace none openNames tagsBefore = ⟨known, none⟩ ∧
      earlier = known ++ own ∧ tagEvents names tag = .ok (own ++ event :: ownLater, next)

theorem hasEvent_cons_of_own
    (read : tagEvents openNames tag = .ok (known ++ event :: ownLater, next)) :
    HasEvent openNames (tag :: others) known event :=
  ⟨[], tag, others, [], known, openNames, ownLater, next, rfl, rfl, rfl, read⟩

theorem HasEvent.cons (hasEvent : HasEvent next others known event)
    (read : tagEvents openNames tag = .ok (events, next)) :
    HasEvent openNames (tag :: others) (events ++ known) event := by
  rcases hasEvent with ⟨tagsBefore, other, tagsAfter, before, own, names, ownLater, last, rfl,
    beforeEq, rfl, ownEq⟩
  refine ⟨tag :: tagsBefore, other, tagsAfter, events ++ before, own, names, ownLater, last, rfl,
    ?_, (List.append_assoc _ _ _).symm, ownEq⟩
  rw [trace_cons_of_ok read, beforeEq]
  rfl

/-- An event of a trace is one of the events of a tag. -/
theorem hasEvent_of_trace
    (delivered : (trace failure openNames tags).events = known ++ event :: following) :
    HasEvent openNames tags known event := by
  induction tags generalizing openNames known with
  | nil => simp [trace] at delivered
  | cons tag rest ih =>
      cases read : tagEvents openNames tag with
      | error cause =>
          rw [trace_cons_of_error read] at delivered
          simp at delivered
      | ok result =>
          rcases result with ⟨events, next⟩
          rw [trace_cons_of_ok read] at delivered
          rcases List.append_eq_append_iff.mp delivered with
            ⟨between, rfl, restEq⟩ | ⟨own, rfl, restEq⟩
          · exact (ih restEq).cons read
          · cases own with
            | nil =>
                have later : HasEvent next rest [] event := ih restEq.symm
                simpa using later.cons read
            | cons found ownLater =>
                rw [List.cons_append, List.cons.injEq] at restEq
                rcases restEq with ⟨rfl, _⟩
                exact hasEvent_cons_of_own read

end Events

end Scan

/-- An event of a source is one of the events of a tag that stands there, and the text before the
tag has the events before those. -/
theorem exists_tag_of_events {source : List Char} {earlier later : List Event} {event : Event}
    (delivered : (events source).events = earlier ++ event :: later) :
    ∃ before content after known own names ownLater next,
      dropByteOrderMark source = before ++ '<' :: (content ++ '>' :: after) ∧ IsTag content ∧
        eventsFrom [] 0 before = ⟨known, none⟩ ∧ earlier = known ++ own ∧
        tagEvents names ⟨byteLength before, content⟩ = .ok (own ++ event :: ownLater, next) := by
  rcases Scan.hasEvent_of_trace delivered with
    ⟨tagsBefore, ⟨position, content⟩, tagsAfter, known, own, names, ownLater, next, tagsEq,
      knownEq, earlierEq, ownEq⟩
  have found : Scan.run 0 .text (dropByteOrderMark source) =
      ⟨tagsBefore ++ ⟨position, content⟩ :: tagsAfter,
        (scan (dropByteOrderMark source)).failure⟩ := by
    rw [← tagsEq]
    rfl
  rcases Scan.exists_of_run_text found with
    ⟨before, after, textEq, positionEq, beforeEq, isTag⟩
  rw [Nat.zero_add] at positionEq
  subst positionEq
  refine ⟨before, content, after, known, own, names, ownLater, next, textEq, isTag, ?_,
    earlierEq, ownEq⟩
  simp only [eventsFrom, beforeEq, knownEq]

end Markup

end TikzGlyph
