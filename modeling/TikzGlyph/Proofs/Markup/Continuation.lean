import TikzGlyph.Markup.Event
import TikzGlyph.Proofs.Result

/-!
# Texts and what follows them

A text without a fault ends outside all markup, so a scan of more text goes on there as a scan of a
new text would. What the first text leaves behind are its open elements. A second text without a
fault never looks at them, since it closes only elements of its own. Neither does it matter where
the second text starts: offsets occur in the positions of events only.
-/

namespace TikzGlyph

namespace Markup

/-- The events of a text from a byte offset on, while some elements are open. -/
def eventsFrom (openNames : List (List Char)) (position : Nat) (text : List Char) : Trace :=
  let found := Scan.run position .text text
  Scan.trace found.failure openNames found.tags

def Event.placedAt (position : Nat) : Event → Event
  | .opening name attributes _ => .opening name attributes position
  | .closing name _ => .closing name position

/-- The elements that are open after an event, innermost first. Only the innermost one can be
closed. -/
def Event.openAfter? (openNames : List (List Char)) : Event → Option (List (List Char))
  | .opening name _ _ => some (name :: openNames)
  | .closing name _ =>
      match openNames with
      | [] => none
      | innermost :: outer => if innermost = name then some outer else none

/-- The elements that some events leave open, unless they close one that is not the innermost. -/
def leftOpen? (openNames : List (List Char)) (events : List Event) : Option (List (List Char)) :=
  events.foldlM Event.openAfter? openNames

theorem events_eq_eventsFrom (source : List Char) :
    events source = eventsFrom [] 0 (dropByteOrderMark source) := rfl

theorem dropByteOrderMark_cons {first : Char} (noMark : first ≠ '\ufeff') (rest : List Char) :
    dropByteOrderMark (first :: rest) = first :: rest := by
  simp [dropByteOrderMark, noMark]

theorem Trace.prepend_nil (trace : Trace) : trace.prepend [] = trace := rfl

theorem Trace.prepend_prepend (trace : Trace) (earlier later : List Event) :
    (trace.prepend later).prepend earlier = trace.prepend (earlier ++ later) := by
  simp [Trace.prepend]

/-! ## Scans -/

namespace Place

theorem unfinished?_eq_none_iff {place : Place} : place.unfinished? = none ↔ place = .text := by
  cases place with
  | tag quote reversed => cases quote <;> simp [unfinished?]
  | _ => simp [unfinished?]

end Place

namespace Scan

variable {position : Nat} {place : Place} {character : Char} {text rest : List Char}

theorem run_cons_of_move {next : Place} (moved : place.step character = .move next) :
    run position place (character :: rest) = run (position + character.utf8Size) next rest := by
  rw [run, moved]

theorem run_cons_of_tag {reversed : List Char} (ended : place.step character = .tag reversed) :
    run position place (character :: rest) =
      cons ⟨position - byteLength reversed.reverse - 1, reversed.reverse⟩
        (run (position + character.utf8Size) .text rest) := by
  rw [run, ended]

theorem run_cons_of_fail {cause : Error} (failed : place.step character = .fail cause) :
    run position place (character :: rest) = ⟨[], some cause⟩ := by
  rw [run, failed]

theorem run_append (accepted : (run position place text).failure = none) :
    run position place (text ++ rest) =
      { run (position + byteLength text) .text rest with
        tags := (run position place text).tags ++
          (run (position + byteLength text) .text rest).tags } := by
  induction text generalizing position place with
  | nil =>
      have outside : place = .text := Place.unfinished?_eq_none_iff.mp accepted
      subst outside
      rfl
  | cons first others ih =>
      rw [List.cons_append, byteLength_cons, ← Nat.add_assoc]
      cases step : place.step first with
      | move next =>
          rw [run_cons_of_move step] at accepted ⊢
          rw [run_cons_of_move step]
          exact ih accepted
      | tag reversed =>
          rw [run_cons_of_tag step] at accepted ⊢
          rw [run_cons_of_tag step, ih accepted]
          rfl
      | fail cause =>
          rw [run_cons_of_fail step] at accepted
          cases accepted

theorem contents_run (position other : Nat) (place : Place) (text : List Char) :
    (run position place text).tags.map RawTag.content =
        (run other place text).tags.map RawTag.content ∧
      (run position place text).failure = (run other place text).failure := by
  induction text generalizing position other place with
  | nil => exact ⟨rfl, rfl⟩
  | cons first rest ih =>
      cases step : place.step first with
      | move next =>
          rw [run_cons_of_move step, run_cons_of_move step]
          exact ih _ _ next
      | tag reversed =>
          rw [run_cons_of_tag step, run_cons_of_tag step]
          rcases ih (position + first.utf8Size) (other + first.utf8Size) .text with
            ⟨contentsEq, failureEq⟩
          exact ⟨by simp [cons, contentsEq], failureEq⟩
      | fail cause =>
          rw [run_cons_of_fail step, run_cons_of_fail step]
          exact ⟨rfl, rfl⟩

end Scan

/-! ## Open elements -/

theorem leftOpen?_append {openNames middle : List (List Char)} {events : List Event}
    (opened : leftOpen? openNames events = some middle) (later : List Event) :
    leftOpen? openNames (events ++ later) = leftOpen? middle later := by
  rw [leftOpen?, List.foldlM_append]
  change (leftOpen? openNames events >>= fun current => leftOpen? current later) = _
  rw [opened]
  rfl

theorem openAfter?_of_closeElement {openNames outer : List (List Char)} {name : List Char}
    (closed : closeElement openNames name = .ok outer) (position : Nat) :
    (Event.closing name position).openAfter? openNames = some outer := by
  cases openNames with
  | nil => cases closed
  | cons innermost others =>
      rw [closeElement] at closed
      split at closed
      · next same =>
          cases closed
          exact if_pos same
      · cases closed

/-- What a tag without a fault does to the open elements, with its events. -/
inductive TagReads (openNames : List (List Char)) (tag : RawTag) :
    List Event → List (List Char) → Prop
  | opens {body : List Char} {attributes : List Attribute}
      (role : TagRole.ofContent tag.content = .opens body)
      (attributesRead : tagAttributes body = .ok attributes) :
      TagReads openNames tag [.opening (tagName body) attributes tag.position]
        (tagName body :: openNames)
  | opensAndCloses {body : List Char} {attributes : List Attribute}
      (role : TagRole.ofContent tag.content = .opensAndCloses body)
      (attributesRead : tagAttributes body = .ok attributes) :
      TagReads openNames tag
        [.opening (tagName body) attributes tag.position, .closing (tagName body) tag.position]
        openNames
  | closes {name : List Char} {outer : List (List Char)}
      (role : TagRole.ofContent tag.content = .closes name)
      (closed : closeElement openNames name = .ok outer) :
      TagReads openNames tag [.closing name tag.position] outer

theorem tagReads_of_tagEvents {openNames next : List (List Char)} {tag : RawTag}
    {events : List Event} (read : tagEvents openNames tag = .ok (events, next)) :
    TagReads openNames tag events next := by
  rw [tagEvents] at read
  cases role : TagRole.ofContent tag.content with
  | opens body =>
      rw [role] at read
      rcases map_eq_ok_iff.mp read with ⟨event, opened, ⟨⟩⟩
      rcases map_eq_ok_iff.mp opened with ⟨attributes, attributesRead, rfl⟩
      exact .opens role attributesRead
  | opensAndCloses body =>
      rw [role] at read
      rcases map_eq_ok_iff.mp read with ⟨event, opened, ⟨⟩⟩
      rcases map_eq_ok_iff.mp opened with ⟨attributes, attributesRead, rfl⟩
      exact .opensAndCloses role attributesRead
  | closes name =>
      rw [role] at read
      rcases map_eq_ok_iff.mp read with ⟨outer, closed, ⟨⟩⟩
      exact .closes role closed

/-- The elements that are open after a tag are those that its events leave open. -/
theorem leftOpen?_of_tagEvents {openNames next : List (List Char)} {tag : RawTag}
    {events : List Event} (read : tagEvents openNames tag = .ok (events, next)) :
    leftOpen? openNames events = some next := by
  cases tagReads_of_tagEvents read with
  | opens role attributesRead => rfl
  | opensAndCloses role attributesRead => simp [leftOpen?, Event.openAfter?]
  | closes role closed => simp [leftOpen?, openAfter?_of_closeElement closed]

theorem leftOpen?_append_below {openNames final : List (List Char)} {events : List Event}
    (leftOpen : leftOpen? openNames events = some final)
    (below : List (List Char)) :
    leftOpen? (openNames ++ below) events = some (final ++ below) := by
  induction events generalizing openNames with
  | nil =>
      cases leftOpen
      rfl
  | cons event rest ih =>
      rw [leftOpen?, List.foldlM_cons] at leftOpen
      rcases Option.bind_eq_some_iff.mp leftOpen with ⟨next, opened, restOpen⟩
      have openedBelow : event.openAfter? (openNames ++ below) = some (next ++ below) := by
        cases event with
        | opening name attributes position =>
            cases opened
            rfl
        | closing name position =>
            cases openNames with
            | nil => cases opened
            | cons innermost outer =>
                simp only [Event.openAfter?, Option.ite_none_right_eq_some, Option.some.injEq]
                  at opened
                rcases opened with ⟨same, rfl⟩
                simp [Event.openAfter?, same]
      rw [leftOpen?, List.foldlM_cons, openedBelow]
      exact ih restOpen

theorem leftOpen?_placedAt (openNames : List (List Char)) (events : List Event) (position : Nat) :
    leftOpen? openNames (events.map (Event.placedAt position)) = leftOpen? openNames events := by
  rw [leftOpen?, List.foldlM_map]
  have stepEq : (fun names event => (Event.placedAt position event).openAfter? names) =
      fun names event => event.openAfter? names := by
    funext names event
    cases event <;> rfl
  rw [stepEq]
  rfl

/-- Events that differ in their positions only leave the same elements open. -/
theorem leftOpen?_of_placedAt {events others : List Event}
    (same : others.map (Event.placedAt 0) = events.map (Event.placedAt 0))
    (openNames : List (List Char)) :
    leftOpen? openNames others = leftOpen? openNames events := by
  rw [← leftOpen?_placedAt openNames others 0, same, leftOpen?_placedAt]

/-! ## Traces -/

namespace Scan

theorem trace_cons_of_ok {failure : Option Error} {openNames next : List (List Char)} {tag : RawTag}
    {tags : List RawTag} {events : List Event}
    (closed : tagEvents openNames tag = .ok (events, next)) :
    trace failure openNames (tag :: tags) = (trace failure next tags).prepend events := by
  rw [trace, closed]

theorem trace_cons_of_error {failure : Option Error} {openNames : List (List Char)} {tag : RawTag}
    {tags : List RawTag} {cause : Error} (failed : tagEvents openNames tag = .error cause) :
    trace failure openNames (tag :: tags) = ⟨[], some cause⟩ := by
  rw [trace, failed]

theorem exists_tagEvents_of_trace {failure : Option Error} {openNames : List (List Char)}
    {tag : RawTag} {tags : List RawTag}
    (accepted : (trace failure openNames (tag :: tags)).failure = none) :
    ∃ events next, tagEvents openNames tag = .ok (events, next) ∧
      (trace failure next tags).failure = none := by
  cases read : tagEvents openNames tag with
  | error cause =>
      rw [trace_cons_of_error read] at accepted
      cases accepted
  | ok result =>
      rcases result with ⟨events, next⟩
      rw [trace_cons_of_ok read] at accepted
      exact ⟨events, next, rfl, accepted⟩

theorem exists_trace_append {failure : Option Error} {openNames : List (List Char)}
    {tags : List RawTag} (accepted : (trace failure openNames tags).failure = none) :
    failure = none ∧
      ∃ final, leftOpen? openNames (trace failure openNames tags).events = some final ∧
      ∀ laterFailure later,
        trace laterFailure openNames (tags ++ later) =
          (trace laterFailure final later).prepend (trace failure openNames tags).events := by
  induction tags generalizing openNames with
  | nil => exact ⟨accepted, openNames, rfl, fun _ _ => rfl⟩
  | cons tag rest ih =>
      rcases exists_tagEvents_of_trace accepted with ⟨events, next, read, restAccepted⟩
      rcases ih restAccepted with ⟨noFailure, final, leftOpen, continued⟩
      rw [trace_cons_of_ok read]
      refine ⟨noFailure, final, ?_, ?_⟩
      · rw [Trace.prepend, leftOpen?_append (leftOpen?_of_tagEvents read)]
        exact leftOpen
      · intro laterFailure later
        rw [List.cons_append, trace_cons_of_ok read, continued, Trace.prepend_prepend]
        rfl

end Scan

/-! ## Tags below other elements -/

theorem closeElement_append {openNames outer : List (List Char)} {name : List Char}
    (closed : closeElement openNames name = .ok outer) (below : List (List Char)) :
    closeElement (openNames ++ below) name = .ok (outer ++ below) := by
  cases openNames with
  | nil => cases closed
  | cons innermost others =>
      rw [closeElement] at closed
      rw [List.cons_append, closeElement]
      by_cases same : innermost = name
      · rw [if_pos same] at closed ⊢
        cases closed
        rfl
      · rw [if_neg same] at closed
        cases closed

theorem exists_tagEvents_append {openNames next : List (List Char)} {tag moved : RawTag}
    {events : List Event} (read : tagEvents openNames tag = .ok (events, next))
    (contentEq : moved.content = tag.content) (below : List (List Char)) :
    ∃ movedEvents, tagEvents (openNames ++ below) moved = .ok (movedEvents, next ++ below) ∧
      movedEvents.map (Event.placedAt 0) = events.map (Event.placedAt 0) := by
  rw [tagEvents, contentEq]
  cases tagReads_of_tagEvents read with
  | @opens body attributes role attributesRead =>
      refine ⟨[.opening (tagName body) attributes moved.position], ?_, rfl⟩
      simp [role, openingEvent, attributesRead, Except.map]
  | @opensAndCloses body attributes role attributesRead =>
      refine ⟨[.opening (tagName body) attributes moved.position,
        .closing (tagName body) moved.position], ?_, rfl⟩
      simp [role, openingEvent, attributesRead, Except.map]
  | @closes name outer role closed =>
      refine ⟨[.closing name moved.position], ?_, rfl⟩
      simp [role, closeElement_append closed, Except.map]

theorem Scan.trace_append_below {failure : Option Error} {openNames : List (List Char)}
    {tags moved : List RawTag} (accepted : (trace failure openNames tags).failure = none)
    (contentsEq : moved.map RawTag.content = tags.map RawTag.content)
    (below : List (List Char)) :
    (trace failure (openNames ++ below) moved).failure = none ∧
      (trace failure (openNames ++ below) moved).events.map (Event.placedAt 0) =
        (trace failure openNames tags).events.map (Event.placedAt 0) := by
  induction tags generalizing openNames moved with
  | nil =>
      rw [List.map_nil, List.map_eq_nil_iff] at contentsEq
      subst contentsEq
      exact ⟨accepted, rfl⟩
  | cons tag rest ih =>
      rcases List.map_eq_cons_iff.mp contentsEq with
        ⟨movedTag, movedRest, rfl, contentEq, restEq⟩
      rcases exists_tagEvents_of_trace accepted with ⟨events, next, read, restAccepted⟩
      rcases exists_tagEvents_append read contentEq below with
        ⟨movedEvents, movedRead, eventsEq⟩
      rcases ih restAccepted restEq with ⟨movedAccepted, restEventsEq⟩
      rw [trace_cons_of_ok read, trace_cons_of_ok movedRead]
      refine ⟨movedAccepted, ?_⟩
      simp only [Trace.prepend, List.map_append, eventsEq, restEventsEq]

/-! ## Events of a text -/

/-- After a text without a fault the events of the following text come, read while the elements are
open that the first text leaves open. -/
theorem exists_eventsFrom_append {openNames : List (List Char)} {position : Nat} {text : List Char}
    (accepted : (eventsFrom openNames position text).failure = none) :
    ∃ final, leftOpen? openNames (eventsFrom openNames position text).events = some final ∧
      ∀ rest, eventsFrom openNames position (text ++ rest) =
        (eventsFrom final (position + byteLength text) rest).prepend
          (eventsFrom openNames position text).events := by
  rcases Scan.exists_trace_append accepted with ⟨scanAccepted, final, leftOpen, continued⟩
  refine ⟨final, leftOpen, ?_⟩
  intro rest
  simp only [eventsFrom, Scan.run_append scanAccepted, continued]

/-- The open elements around a text without a fault, and its offset, make no difference to its
events, apart from their positions. -/
theorem eventsFrom_append_below {openNames : List (List Char)} {position : Nat} {text : List Char}
    (accepted : (eventsFrom openNames position text).failure = none)
    (below : List (List Char)) (other : Nat) :
    (eventsFrom (openNames ++ below) other text).failure = none ∧
      (eventsFrom (openNames ++ below) other text).events.map (Event.placedAt 0) =
        (eventsFrom openNames position text).events.map (Event.placedAt 0) := by
  rcases Scan.contents_run other position .text text with ⟨contentsEq, failureEq⟩
  simp only [eventsFrom, failureEq]
  exact Scan.trace_append_below accepted contentsEq below

end Markup

end TikzGlyph
