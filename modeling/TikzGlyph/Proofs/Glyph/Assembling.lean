import TikzGlyph.Glyph.Assembly
import TikzGlyph.Proofs.Glyph.Flattening

/-!
# Tags handled one at a time

The groups of a glyph are handed from tag to tag, and a caller may go on after a tag with a fault.
Such a tag makes no difference: every attribute is read before the groups change, so what a tag does
to the groups is its contribution as a whole or nothing. Going on after faults is therefore the same
as never having met the faulty tags, and what has been built is the flat reading of the others. In
particular there is always a last group, and no element gets lost.
-/

namespace TikzGlyph

namespace Assembling

open GlyphEvent

/-- What a contribution does to the groups. -/
def contribute (groups : List Group) : Contribution → List Group
  | .nothing => groups
  | .element element => addToLast element groups
  | .newGroup fill => groups ++ [.empty fill]

/-- The answer of a handler that adds what a reading of attributes contributes. -/
def outcome (groups : List Group) :
    Except GlyphError Contribution → Except GlyphError Unit × List Group
  | .ok contribution => (.ok (), contribute groups contribution)
  | .error cause => (.error cause, groups)

/-- The groups after some events, whether they are accepted or have faults. -/
def after (groups : List Group) (events : List GlyphEvent) : List Group :=
  events.foldl (fun current event => (answer event current).2) groups

/-- Those of some events that are accepted when they are handled one after the other. -/
def succeeding (groups : List Group) : List GlyphEvent → List GlyphEvent
  | [] => []
  | event :: rest =>
      match answer event groups with
      | (.ok (), next) => event :: succeeding next rest
      | (.error _, next) => succeeding next rest

/-! ## One event -/

/-- A step that reads an attribute fails before the groups change. -/
theorem run_lift_bind {value : Type} {result : Except GlyphError value}
    {next : value → Assembling Unit} {contributed : value → Except GlyphError Contribution}
    {groups : List Group}
    (follows : ∀ read, (next read).run.run groups = outcome groups (contributed read)) :
    (lift result >>= next).run.run groups = outcome groups (result >>= contributed) := by
  cases result with
  | error cause => rfl
  | ok read => exact follows read

/-- An event adds its contribution as a whole, or it has a fault and changes nothing. -/
theorem answer_eq (event : GlyphEvent) (groups : List Group) :
    answer event groups = outcome groups event.contribution := by
  cases event with
  | closing tag location => cases tag <;> rfl
  | opening tag attributes location =>
      cases tag with
      | group => exact run_lift_bind fun fill => rfl
      | path => exact run_lift_bind fun data => run_lift_bind fun fill => rfl
      | circle =>
          exact run_lift_bind fun centerX => run_lift_bind fun centerY =>
            run_lift_bind fun radius => run_lift_bind fun fill => rfl
      | ellipse =>
          exact run_lift_bind fun centerX => run_lift_bind fun centerY =>
            run_lift_bind fun radiusX => run_lift_bind fun radiusY => run_lift_bind fun fill => rfl
      | unrecognized name => rfl

theorem answer_cases (event : GlyphEvent) (groups : List Group) :
    (∃ contribution, event.contribution = .ok contribution ∧
        answer event groups = (.ok (), contribute groups contribution)) ∨
      ∃ cause, answer event groups = (.error cause, groups) := by
  rw [answer_eq]
  cases event.contribution with
  | ok contribution => exact Or.inl ⟨contribution, rfl, rfl⟩
  | error cause => exact Or.inr ⟨cause, rfl⟩

theorem addToLast_append_singleton (element : Element) (earlier : List Group) (last : Group) :
    addToLast element (earlier ++ [last]) =
      earlier ++ [⟨last.fill, last.children ++ [element]⟩] := by
  induction earlier with
  | nil => rfl
  | cons first rest ih =>
      cases rest with
      | nil => rfl
      | cons second rest => exact congrArg (first :: ·) ih

/-- The groups of a builder change as the builder does. -/
theorem contribute_groups (builder : Builder) (contribution : Contribution) :
    contribute builder.groups contribution = (builder.add contribution).groups := by
  simp only [Builder.groups, List.reverse_cons]
  cases contribution with
  | nothing => rfl
  | element element => exact addToLast_append_singleton element _ _
  | newGroup fill => simp [contribute, Builder.add]

/-! ## All events -/

section

variable {groups next : List Group} {event : GlyphEvent} {events : List GlyphEvent}

theorem after_cons (answered : (answer event groups).2 = next) :
    after groups (event :: events) = after next events := by
  rw [← answered]
  rfl

theorem succeeding_cons_of_ok (accepted : answer event groups = (.ok (), next)) :
    succeeding groups (event :: events) = event :: succeeding next events := by
  rw [succeeding, accepted]

theorem succeeding_cons_of_error {cause : GlyphError}
    (refused : answer event groups = (.error cause, next)) :
    succeeding groups (event :: events) = succeeding next events := by
  rw [succeeding, refused]

end

/-- Without the events that fail, all succeed, and the groups are the same. -/
theorem after_succeeding (groups : List Group) (events : List GlyphEvent) :
    succeeding groups (succeeding groups events) = succeeding groups events ∧
      after groups (succeeding groups events) = after groups events := by
  induction events generalizing groups with
  | nil => exact ⟨rfl, rfl⟩
  | cons event rest ih =>
      rcases answer_cases event groups with ⟨contribution, _, accepted⟩ | ⟨cause, refused⟩
      · have answered := congrArg Prod.snd accepted
        rcases ih (contribute groups contribution) with ⟨again, same⟩
        rw [succeeding_cons_of_ok accepted, succeeding_cons_of_ok accepted, again,
          after_cons answered, after_cons answered]
        exact ⟨rfl, same⟩
      · rw [succeeding_cons_of_error refused, after_cons (congrArg Prod.snd refused)]
        exact ih groups

/-- The groups of a builder are handed on as the builder is by the events that succeed. -/
theorem exists_foldlM_succeeding (builder : Builder) (events : List GlyphEvent) :
    ∃ final, (succeeding builder.groups events).foldlM Builder.handle builder = .ok final ∧
      after builder.groups events = final.groups := by
  induction events generalizing builder with
  | nil => exact ⟨builder, rfl, rfl⟩
  | cons event rest ih =>
      rcases answer_cases event builder.groups with ⟨contribution, contributed, accepted⟩ |
        ⟨cause, refused⟩
      · rw [contribute_groups] at accepted
        rcases ih (builder.add contribution) with ⟨final, handled, afterEq⟩
        have stepped : builder.handle event = .ok (builder.add contribution) := by
          rw [Builder.handle, contributed]
          rfl
        refine ⟨final, ?_, ?_⟩
        · rw [succeeding_cons_of_ok accepted, foldlM_cons_of_ok stepped]
          exact handled
        · rw [after_cons (congrArg Prod.snd accepted), afterEq]
      · rw [succeeding_cons_of_error refused, after_cons (congrArg Prod.snd refused)]
        exact ih builder

theorem answer_closing (groups : List Group) (tag : Tag) (location : Location) :
    (answer (.closing tag location) groups).1 = .ok () := by
  rw [answer_eq]
  rfl

/-- No closing of a group fails. -/
theorem countP_closesGroup_succeeding (groups : List Group) (events : List GlyphEvent) :
    (succeeding groups events).countP closesGroup = events.countP closesGroup := by
  induction events generalizing groups with
  | nil => rfl
  | cons event rest ih =>
      rcases answer_cases event groups with ⟨contribution, _, accepted⟩ | ⟨cause, refused⟩
      · rw [succeeding_cons_of_ok accepted, List.countP_cons, List.countP_cons, ih]
      · have noClosing : ¬ event.closesGroup = true := by
          intro closes
          cases event with
          | opening tag attributes location => cases closes
          | closing tag location =>
              have answered := answer_closing groups tag location
              rw [refused] at answered
              cases answered
        rw [succeeding_cons_of_error refused, ih, List.countP_cons_of_neg noClosing]

def elementCount (groups : List Group) : Nat := (groups.flatMap Group.children).length

/-- Every drawing tag adds an element to the groups, and no other tag takes one away. -/
theorem elementCount_foldlM {builder final : Builder} {events : List GlyphEvent}
    (handled : events.foldlM Builder.handle builder = .ok final) :
    elementCount final.groups = elementCount builder.groups + events.countP isDrawing := by
  induction events generalizing builder with
  | nil =>
      cases handled
      rfl
  | cons event rest ih =>
      rcases foldlM_cons_eq_ok_iff.mp handled with ⟨next, handled, read⟩
      rw [ih read]
      rcases Builder.handle_cases handled with
        ⟨_, draws, rfl⟩ | ⟨_, draws, element, _, rfl⟩ | ⟨_, draws, rfl⟩
      · simp [elementCount, Builder.groups, draws, Group.empty]
      · simp [elementCount, Builder.groups, draws]
        omega
      · simp [draws]

/-- Tags are handled as a whole or not at all. A tag that fails leaves the groups as they were, so
they are what they would be without the tags that failed, and a closing tag never fails. There is
one group at the start and one more for each group tag that was opened or closed, the elements are
as many as the paths, circles and ellipses that were accepted, and the groups are the flat reading
of what was accepted. -/
theorem handled_as_a_whole (events : List GlyphEvent) :
    (∀ groups event cause, (answer event groups).1 = .error cause →
        (answer event groups).2 = groups) ∧
      (∀ groups tag location, (answer (.closing tag location) groups).1 = .ok ()) ∧
      succeeding start (succeeding start events) = succeeding start events ∧
      after start (succeeding start events) = after start events ∧
      (after start events).length =
        1 + (succeeding start events).countP opensGroup + events.countP closesGroup ∧
      after start events ≠ [] ∧
      elementCount (after start events) = (succeeding start events).countP isDrawing ∧
      Flattens (succeeding start events) (after start events) := by
  have withoutFailing := after_succeeding start events
  rcases exists_foldlM_succeeding .start events with ⟨final, handled, afterEq⟩
  have startEq : Builder.start.groups = start := rfl
  rw [startEq] at handled afterEq
  have flattens := Builder.flattens_foldlM handled
  have counted := elementCount_foldlM handled
  have lengthEq := flattens.length_eq
  rw [← afterEq] at flattens counted lengthEq
  rw [countP_closesGroup_succeeding] at lengthEq
  refine ⟨?_, answer_closing, withoutFailing.1, withoutFailing.2, lengthEq, ?_, ?_, flattens⟩
  · intro groups event cause failed
    rcases answer_cases event groups with ⟨contribution, _, accepted⟩ | ⟨_, refused⟩
    · rw [accepted] at failed
      cases failed
    · rw [refused]
  · intro noneLeft
    rw [noneLeft] at lengthEq
    simp at lengthEq
    omega
  · rw [counted, startEq]
    simp [elementCount, start, Group.empty]

end Assembling

end TikzGlyph
