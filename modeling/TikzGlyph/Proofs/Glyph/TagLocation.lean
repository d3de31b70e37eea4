import TikzGlyph.Proofs.Glyph.Flattening
import TikzGlyph.Proofs.Markup.TagPlaces
import TikzGlyph.Proofs.Text.Location

/-!
# The places of events and faults

Every event of a source is due to a tag that stands there, and a fault of attributes to an event.
The place that both are said to be at comes from the offset of the `<` of the tag, which does not
count a byte order mark at the start of the source. Without a mark it is the place of the `<`,
whatever the text before holds; after a mark it is another place.
-/

namespace TikzGlyph

/-- Where the attributes of a tag are said to be at fault. -/
def GlyphError.location? : GlyphError → Option Location
  | .markup _ => none
  | .missingAttribute _ _ location => some location
  | .invalidNumber _ _ location => some location
  | .invalidFill _ location => some location

namespace GlyphEvent

def location : GlyphEvent → Location
  | .opening _ _ location => location
  | .closing _ location => location

/-- The events of a tag that stands at a place. -/
def ofTag (location : Location) (content : List Char) :
    Except Markup.Error (List GlyphEvent) :=
  match Markup.TagRole.ofContent content with
  | .opens content =>
      (Markup.tagAttributes content).map fun attributes =>
        [.opening (.ofMarkup (Markup.tagName content)) (.ofMarkup attributes) location]
  | .opensAndCloses content =>
      (Markup.tagAttributes content).map fun attributes =>
        [.opening (.ofMarkup (Markup.tagName content)) (.ofMarkup attributes) location,
          .closing (.ofMarkup (Markup.tagName content)) location]
  | .closes name => .ok [.closing (.ofMarkup name) location]

/-- An event that comes after some others in a source is due to a tag that stands there: it is one
of the events of the tag, and those before it are the earlier ones of the tag and those of the text
before the tag. -/
structure DueTo (source : List Char) (earlier : List GlyphEvent) (event : GlyphEvent)
    (before content : List Char) : Prop where
  stands : ∃ after, source = before ++ '<' :: (content ++ '>' :: after)
  isTag : Markup.IsTag content
  delivered : ∃ known own later, Markup.events before = ⟨known, none⟩ ∧
    earlier = known.map (ofMarkup source) ++ own ∧
    ofTag event.location content = .ok (own ++ event :: later)

end GlyphEvent

namespace Markup

/-- The byte order mark that starts a source, if one does. -/
def byteOrderMark : List Char → List Char
  | '\ufeff' :: _ => ['\ufeff']
  | _ => []

theorem byteOrderMark_cases (source : List Char) :
    (∃ rest, source = '\ufeff' :: rest ∧ byteOrderMark source = ['\ufeff'] ∧
        dropByteOrderMark source = rest) ∨
      (source.head? ≠ some '\ufeff' ∧ byteOrderMark source = [] ∧
        dropByteOrderMark source = source) := by
  cases source with
  | nil => exact Or.inr ⟨by simp, rfl, rfl⟩
  | cons first rest =>
      by_cases mark : first = '\ufeff'
      · subst mark
        exact Or.inl ⟨rest, rfl, rfl, rfl⟩
      · exact Or.inr ⟨by simp [mark], by simp [byteOrderMark, mark],
          dropByteOrderMark_cons mark rest⟩

/-- The text before a tag has the same events with the mark of the source in front of it. -/
theorem events_byteOrderMark_append {source before after : List Char}
    (unmarked : dropByteOrderMark source = before ++ after) :
    source = byteOrderMark source ++ before ++ after ∧
      events (byteOrderMark source ++ before) = eventsFrom [] 0 before := by
  rcases byteOrderMark_cases source with ⟨rest, rfl, markEq, dropEq⟩ | ⟨noMark, markEq, dropEq⟩
  · rw [dropEq] at unmarked
    rw [markEq, unmarked]
    exact ⟨rfl, rfl⟩
  · rw [dropEq] at unmarked
    subst unmarked
    rw [markEq]
    refine ⟨rfl, ?_⟩
    cases before with
    | nil => rfl
    | cons first rest =>
        have noMarkFirst : first ≠ '\ufeff' := by
          rintro rfl
          exact noMark rfl
        rw [List.nil_append, events_eq_eventsFrom, dropByteOrderMark_cons noMarkFirst]

end Markup

namespace GlyphEvent

open Markup

theorem ofTag_of_tagEvents (source : List Char) {content : List Char}
    {names next : List (List Char)} {position : Nat} {events : List Event}
    (read : tagEvents names ⟨position, content⟩ = .ok (events, next)) :
    ofTag (.ofOffset source position) content = .ok (events.map (ofMarkup source)) := by
  rw [ofTag]
  cases tagReads_of_tagEvents read with
  | opens role attributesRead =>
      simp only [role, attributesRead, Except.map]
      rfl
  | opensAndCloses role attributesRead =>
      simp only [role, attributesRead, Except.map]
      rfl
  | closes role closed =>
      simp only [role]
      rfl

/-- All events of a tag are at its place. -/
theorem location_of_ofTag {content : List Char} {location : Location} {events : List GlyphEvent}
    {event : GlyphEvent} (read : ofTag location content = .ok events) (eventMem : event ∈ events) :
    event.location = location := by
  rw [ofTag] at read
  cases role : TagRole.ofContent content with
  | opens body =>
      rw [role] at read
      rcases map_eq_ok_iff.mp read with ⟨attributes, _, rfl⟩
      rw [List.mem_singleton] at eventMem
      subst eventMem
      rfl
  | opensAndCloses body =>
      rw [role] at read
      rcases map_eq_ok_iff.mp read with ⟨attributes, _, rfl⟩
      simp only [List.mem_cons, List.not_mem_nil, or_false] at eventMem
      rcases eventMem with rfl | rfl <;> rfl
  | closes name =>
      rw [role] at read
      cases read
      rw [List.mem_singleton] at eventMem
      subst eventMem
      rfl

/-! ## Faults -/

/-- A fault of the attributes of a tag is at the place of the tag. -/
theorem location?_of_fault? {event : GlyphEvent} {cause : GlyphError}
    (faulty : event.fault? = some cause) : cause.location? = some event.location := by
  cases event with
  | closing tag location => cases faulty
  | opening tag attributes location =>
      rcases List.exists_of_findSome?_eq_some faulty with ⟨demand, _, unmet⟩
      cases demand with
      | text name =>
          simp only [Demand.fault?] at unmet
          split at unmet <;> cases unmet
          rfl
      | number name =>
          simp only [Demand.fault?] at unmet
          split at unmet
          · split at unmet <;> cases unmet
            rfl
          · cases unmet
            rfl
      | fill =>
          simp only [Demand.fault?] at unmet
          split at unmet
          · split at unmet
            · cases unmet
            · split at unmet <;> cases unmet
              rfl
          · cases unmet

end GlyphEvent

/-- A fault that has a place is that of the first faulty event. -/
theorem exists_faulty_event {source : String} {cause : GlyphError} {location : Location}
    (failed : parseGlyph source = .error cause) (located : cause.location? = some location) :
    ∃ earlier event later, (glyphEvents source).events = earlier ++ event :: later ∧
      (∀ previous ∈ earlier, previous.fault? = none) ∧ event.fault? = some cause ∧
      event.location = location := by
  have firstFault := failure?_parseGlyph source
  rw [failed] at firstFault
  cases found : (glyphEvents source).events.findSome? GlyphEvent.fault? with
  | some fault =>
      rw [found] at firstFault
      cases firstFault
      rcases List.findSome?_eq_some_iff.mp found with
        ⟨earlier, event, later, eventsEq, faulty, unfaulty⟩
      have samePlace := GlyphEvent.location?_of_fault? faulty
      rw [located, Option.some.injEq] at samePlace
      exact ⟨earlier, event, later, eventsEq, unfaulty, faulty, samePlace.symm⟩
  | none =>
      rw [found] at firstFault
      rcases Option.map_eq_some_iff.mp firstFault.symm with ⟨markup, _, rfl⟩
      cases located

/-! ## Places -/

open Markup

/-- Every event is due to a tag, and its place is that of the offset of the `<` of the tag without
the byte order mark. -/
theorem exists_tag_of_glyphEvents {source : String} {earlier later : List GlyphEvent}
    {event : GlyphEvent} (delivered : (glyphEvents source).events = earlier ++ event :: later) :
    ∃ before content, event.DueTo source.toList earlier before content ∧
      event.location = .ofOffset source.toList
        (byteLength before - byteLength (byteOrderMark source.toList)) := by
  rcases List.map_eq_append_iff.mp delivered with ⟨written, writtenRest, writtenEq, rfl, restEq⟩
  rcases List.map_eq_cons_iff.mp restEq with ⟨writtenEvent, writtenLater, rfl, rfl, rfl⟩
  rcases exists_tag_of_events writtenEq with
    ⟨before, content, after, known, own, names, ownLater, next, unmarked, isTag, knownEq, rfl, read⟩
  rcases events_byteOrderMark_append unmarked with ⟨textEq, beforeEvents⟩
  have ownRead := GlyphEvent.ofTag_of_tagEvents source.toList read
  have eventLocation := GlyphEvent.location_of_ofTag ownRead
    (List.mem_map_of_mem (List.mem_append_right own List.mem_cons_self))
  refine ⟨byteOrderMark source.toList ++ before, content, ⟨⟨after, textEq⟩, isTag, known,
    own.map (GlyphEvent.ofMarkup source.toList), ownLater.map (GlyphEvent.ofMarkup source.toList),
    ?_, by simp, ?_⟩, ?_⟩
  · rw [beforeEvents, knownEq]
  · rw [eventLocation, ownRead]
    simp
  · rw [eventLocation, byteLength_append, Nat.add_sub_cancel_left]

/-- The offset without the mark has the place of a `<` only if there is no mark. -/
theorem ofOffset_sub_mark_eq_iff {source before after : List Char}
    (stands : source = before ++ '<' :: after) :
    Location.ofOffset source (byteLength before - byteLength (byteOrderMark source)) =
        .ofOffset source (byteLength before) ↔
      source.head? ≠ some '\ufeff' := by
  have sameOffsetIff :
      Location.ofOffset source (byteLength before - byteLength (byteOrderMark source)) =
          .ofOffset source (byteLength before) ↔
        byteLength before - byteLength (byteOrderMark source) = byteLength before := by
    rw [stands, Location.ofOffset_byteLength]
    exact Location.ofOffset_eq_afterText_iff (by simp)
  rw [sameOffsetIff]
  rcases byteOrderMark_cases source with ⟨rest, sourceEq, markEq, _⟩ | ⟨noMark, markEq, _⟩
  · have beforeLength : 0 < byteLength before := by
      cases before with
      | nil =>
          rw [sourceEq] at stands
          cases stands
      | cons first others =>
          rw [byteLength_cons]
          have firstWidth := first.utf8Size_pos
          omega
    have markLength : byteLength ['\ufeff'] = 3 := rfl
    rw [markEq, markLength, sourceEq]
    simp only [List.head?_cons, ne_eq, not_true_eq_false, iff_false]
    omega
  · rw [markEq]
    simp [noMark]

/-- Every event of a source is due to a tag, and a fault of attributes is at the place of the first
faulty event. That place is the one of the `<` of the tag exactly if no byte order mark starts the
source; a mark is left out of the offset that the place is made from. Lines are counted by the
newlines before an offset, and columns by the characters since the last one. -/
theorem locations_at_tags (source : String) :
    (∀ earlier event later, (glyphEvents source).events = earlier ++ event :: later →
      ∃ before content, event.DueTo source.toList earlier before content ∧
        event.location = .ofOffset source.toList
          (byteLength before - byteLength (byteOrderMark source.toList)) ∧
        (event.location = .ofOffset source.toList (byteLength before) ↔
          source.toList.head? ≠ some '\ufeff')) ∧
      (∀ cause location, parseGlyph source = .error cause → cause.location? = some location →
        ∃ earlier event later, (glyphEvents source).events = earlier ++ event :: later ∧
          (∀ previous ∈ earlier, previous.fault? = none) ∧ event.fault? = some cause ∧
          event.location = location) ∧
      ∀ before after, source.toList = before ++ after →
        Location.ofOffset source.toList (byteLength before) =
          ⟨1 + before.count '\n',
            1 + (before.rtakeWhile fun character => character ≠ '\n').length⟩ := by
  refine ⟨?_, ?_, ?_⟩
  · intro earlier event later delivered
    rcases exists_tag_of_glyphEvents delivered with ⟨before, content, due, locationEq⟩
    rcases due.stands with ⟨after, stands⟩
    refine ⟨before, content, due, locationEq, ?_⟩
    rw [locationEq]
    exact ofOffset_sub_mark_eq_iff stands
  · intro cause location failed located
    exact exists_faulty_event failed located
  · intro before after sourceEq
    rw [sourceEq, Location.ofOffset_byteLength]
    exact Location.afterText_start before

/-- A path without data is reported at its `<`, behind a comment with a tag in it on the line
before. -/
theorem locations_at_tags_after_comment :
    parseGlyph "☀<!-- <g> -->\n <path/>" = .error (.missingAttribute "path" "d" ⟨2, 2⟩) ∧
      ∃ earlier event later before content,
        (glyphEvents "☀<!-- <g> -->\n <path/>").events = earlier ++ event :: later ∧
        event.DueTo "☀<!-- <g> -->\n <path/>".toList earlier before content ∧
        event.location = ⟨2, 2⟩ ∧
        event.location = .ofOffset "☀<!-- <g> -->\n <path/>".toList (byteLength before) := by
  have failed : failure? (parseGlyph "☀<!-- <g> -->\n <path/>") =
      some (.missingAttribute "path" "d" ⟨2, 2⟩) := by
    decide +kernel
  rw [failure?_eq_some_iff] at failed
  rcases (locations_at_tags _).2.1 _ _ failed rfl with
    ⟨earlier, event, later, delivered, _, _, locationEq⟩
  rcases (locations_at_tags _).1 earlier event later delivered with ⟨before, content, due, _, atTag⟩
  exact ⟨failed, earlier, event, later, before, content, delivered, due, locationEq,
    atTag.mpr (by decide)⟩

/-- After a byte order mark the only tag of a source stands on the second line, but its events and
the fault of its attributes are said to be at the end of the source. -/
theorem location_ne_tag_after_mark :
    "\ufeff\n<circle/>".toList = ['\ufeff', '\n'] ++ '<' :: ("circle/".toList ++ ['>']) ∧
      Location.ofOffset "\ufeff\n<circle/>".toList (byteLength ['\ufeff', '\n']) = ⟨2, 1⟩ ∧
      (glyphEvents "\ufeff\n<circle/>").events.map GlyphEvent.location = [⟨2, 10⟩, ⟨2, 10⟩] ∧
      failure? (parseGlyph "\ufeff\n<circle/>") =
        some (.missingAttribute "circle" "cx" ⟨2, 10⟩) := by
  decide +kernel

end TikzGlyph
