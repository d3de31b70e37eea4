import TikzGlyph.Proofs.Glyph.Demands

/-!
# Flat glyphs

A glyph is read in one pass over its tags, and the pass is flat: a group starts at every opening and
at every closing of a group tag, and it ends where the next one starts. This file proves this law
for every source. It follows from one induction over the events for the faults, one for the fills of
the groups and one for their elements; each is stated for a builder in any state.
-/

namespace TikzGlyph

namespace GlyphEvent

/-- The elements that a run of events describes, one for each drawing tag. -/
def drawings (events : List GlyphEvent) : List (Option Element) :=
  (events.filter isDrawing).map element?

/-- Groups are the flat reading of some events: the first group has no fill, every opening and every
closing of a group starts another one, and the elements of a group are those between its start and
the next. -/
structure Flattens (events : List GlyphEvent) (groups : List Group) : Prop where
  length_eq : groups.length = 1 + events.countP opensGroup + events.countP closesGroup
  fills_eq : groups.map Group.fill = none :: (events.filter boundsGroup).map groupFill
  children_eq :
    groups.map (fun group => group.children.map some) =
      (events.splitOnP boundsGroup).map drawings
  not_nested : ∀ group ∈ groups, ∀ fill children, Element.group fill children ∉ group.children

end GlyphEvent

open GlyphEvent

/-! ## One event -/

namespace Builder

variable {builder next final : Builder} {event : GlyphEvent} {events : List GlyphEvent}

theorem failure?_handle : failure? (builder.handle event) = event.fault? := by
  rw [handle, failure?_map, failure?_contribution]

theorem handle_cases (handled : builder.handle event = .ok next) :
    (event.boundsGroup = true ∧ event.isDrawing = false ∧
        next = ⟨builder.last :: builder.earlier, .empty event.groupFill⟩) ∨
      (event.boundsGroup = false ∧ event.isDrawing = true ∧
        ∃ element, event.element? = some element ∧
          next = ⟨builder.earlier, builder.last.fill, builder.last.children ++ [element]⟩) ∨
      (event.boundsGroup = false ∧ event.isDrawing = false ∧ next = builder) := by
  rcases map_eq_ok_iff.mp handled with ⟨contribution, accepted, rfl⟩
  rcases contribution_cases accepted with
    ⟨bounds, draws, rfl⟩ | ⟨bounds, draws, element, elementEq, rfl⟩ | ⟨bounds, draws, rfl⟩
  · exact Or.inl ⟨bounds, draws, rfl⟩
  · exact Or.inr (Or.inl ⟨bounds, draws, element, elementEq, rfl⟩)
  · exact Or.inr (Or.inr ⟨bounds, draws, rfl⟩)

theorem handle_of_not_isRecognized (unknown : event.isRecognized = false) :
    builder.handle event = .ok builder := by
  rw [handle, contribution_of_not_isRecognized unknown]
  rfl

/-! ## All events -/

/-- Reading events fails with the fault of the first event that has one. -/
theorem failure?_foldlM :
    failure? (events.foldlM handle builder) = events.findSome? GlyphEvent.fault? := by
  induction events generalizing builder with
  | nil => rfl
  | cons event rest ih =>
      rw [List.foldlM_cons, findSome?_cons_or]
      exact failure?_bind failure?_handle fun _ _ => ih

/-- Reading events adds the fill of one group for each tag that opens or closes a group. -/
theorem fills_foldlM (handled : events.foldlM handle builder = .ok final) :
    final.groups.map Group.fill =
      builder.groups.map Group.fill ++ (events.filter boundsGroup).map groupFill := by
  induction events generalizing builder with
  | nil =>
      cases handled
      simp
  | cons event rest ih =>
      rcases foldlM_cons_eq_ok_iff.mp handled with ⟨next, handled, read⟩
      rw [ih read]
      rcases handle_cases handled with
        ⟨bounds, _, rfl⟩ | ⟨bounds, _, element, _, rfl⟩ | ⟨bounds, _, rfl⟩
      · simp [groups, bounds, Group.empty]
      · simp [groups, bounds]
      · simp [bounds]

/-- Reading events adds the elements before the first group tag to the last group, and those after
it to groups of their own. -/
theorem children_foldlM (handled : events.foldlM handle builder = .ok final) :
    final.groups.map (fun group => group.children.map some) =
      builder.earlier.reverse.map (fun group => group.children.map some) ++
        ((events.splitOnP boundsGroup).map drawings).modifyHead
          (builder.last.children.map some ++ ·) := by
  induction events generalizing builder with
  | nil =>
      cases handled
      simp [groups, drawings]
  | cons event rest ih =>
      rcases foldlM_cons_eq_ok_iff.mp handled with ⟨next, handled, read⟩
      rw [ih read, List.splitOnP_cons_eq_if_modifyHead]
      rcases List.exists_cons_of_ne_nil (List.splitOnP_ne_nil boundsGroup rest) with
        ⟨current, later, splitEq⟩
      rw [splitEq]
      rcases handle_cases handled with
        ⟨bounds, draws, rfl⟩ | ⟨bounds, draws, element, elementEq, rfl⟩ | ⟨bounds, draws, rfl⟩
      · simp [bounds, drawings, Group.empty]
      · simp [bounds, draws, drawings, elementEq]
      · simp [bounds, draws, drawings]

theorem foldlM_filter_isRecognized :
    (events.filter isRecognized).foldlM handle builder = events.foldlM handle builder := by
  induction events generalizing builder with
  | nil => rfl
  | cons event rest ih =>
      cases known : event.isRecognized with
      | true =>
          rw [List.filter_cons_of_pos known, List.foldlM_cons, List.foldlM_cons]
          exact bind_congr fun _ => ih
      | false =>
          rw [List.filter_cons_of_neg (by simp [known]), List.foldlM_cons,
            handle_of_not_isRecognized known, ih]
          rfl

/-- The groups that have been built from the start are the flat reading of the events. -/
theorem flattens_foldlM (handled : events.foldlM handle start = .ok final) :
    Flattens events final.groups := by
  have fills : final.groups.map Group.fill = none :: (events.filter boundsGroup).map groupFill :=
    fills_foldlM handled
  have children : final.groups.map (fun group => group.children.map some) =
      (events.splitOnP boundsGroup).map drawings := by
    rw [children_foldlM handled]
    rcases List.exists_cons_of_ne_nil (List.splitOnP_ne_nil boundsGroup events) with
      ⟨first, later, splitEq⟩
    simp [splitEq, start, Group.empty]
  refine ⟨?_, fills, children, ?_⟩
  · have lengths := congrArg List.length fills
    simp only [List.length_map, List.length_cons, ← List.countP_eq_length_filter] at lengths
    rw [lengths, countP_boundsGroup]
    omega
  · intro group groupMem fill nested nestedMem
    have described := List.mem_map_of_mem (f := fun group => group.children.map some) groupMem
    rw [children] at described
    rcases List.mem_map.mp described with ⟨between, _, betweenEq⟩
    have drawn : some (Element.group fill nested) ∈ drawings between := by
      rw [betweenEq]
      exact List.mem_map_of_mem nestedMem
    rcases List.mem_map.mp drawn with ⟨event, _, eventEq⟩
    exact element?_ne_group eventEq

end Builder

/-! ## Sources -/

theorem parseGlyph_eq_bind (source : String) :
    parseGlyph source =
      (glyphEvents source).events.foldlM Builder.handle .start >>= fun builder =>
        match (glyphEvents source).failure with
        | some cause => .error cause
        | none => .ok builder.groups := by
  simp only [parseGlyph]
  cases (glyphEvents source).events.foldlM Builder.handle .start <;> rfl

theorem failure?_parseGlyph (source : String) :
    failure? (parseGlyph source) =
      ((glyphEvents source).events.findSome? GlyphEvent.fault?).or
        (glyphEvents source).failure := by
  rw [parseGlyph_eq_bind]
  apply failure?_bind Builder.failure?_foldlM
  intro builder _
  cases (glyphEvents source).failure <;> rfl

theorem exists_foldlM_of_parseGlyph {source : String} {groups : List Group}
    (parsed : parseGlyph source = .ok groups) :
    ∃ builder, (glyphEvents source).events.foldlM Builder.handle .start = .ok builder ∧
      builder.groups = groups := by
  rw [parseGlyph_eq_bind] at parsed
  rcases bind_eq_ok_iff.mp parsed with ⟨builder, handled, finished⟩
  refine ⟨builder, handled, ?_⟩
  cases failed : (glyphEvents source).failure with
  | some cause =>
      rw [failed] at finished
      cases finished
  | none =>
      rw [failed] at finished
      exact Except.ok.inj finished

/-- Reading a glyph is a flat pass over its tags. It succeeds exactly if the markup is complete and
every tag is valid, and fails with the first fault otherwise, faults of tags before those of markup.
The groups are the flat reading of the tags, and tags that glyphs do not know make no difference. -/
theorem parseGlyph_flattens (source : String) :
    ((∃ groups, parseGlyph source = .ok groups) ↔
        (glyphEvents source).failure = none ∧
          ∀ event ∈ (glyphEvents source).events, event.IsValid) ∧
      (∀ cause, parseGlyph source = .error cause ↔
        ((glyphEvents source).events.findSome? GlyphEvent.fault?).or (glyphEvents source).failure =
          some cause) ∧
      (∀ groups, parseGlyph source = .ok groups →
        Flattens (glyphEvents source).events groups) ∧
      ((glyphEvents source).events.filter isRecognized).foldlM Builder.handle .start =
        (glyphEvents source).events.foldlM Builder.handle .start := by
  refine ⟨?_, ?_, ?_, Builder.foldlM_filter_isRecognized⟩
  · rw [← failure?_eq_none_iff, failure?_parseGlyph, Option.or_eq_none_iff, and_comm,
      List.findSome?_eq_none_iff]
    exact and_congr_right fun _ => forall₂_congr fun event _ => isValid_iff.symm
  · intro cause
    rw [← failure?_eq_some_iff, failure?_parseGlyph]
  · intro groups parsed
    rcases exists_foldlM_of_parseGlyph parsed with ⟨builder, handled, rfl⟩
    exact Builder.flattens_foldlM handled

/-- A group with a path in it, followed by a circle, is read as three groups. -/
theorem flattens_sun :
    ∃ groups,
      parseGlyph "<g fill='#fc0'><path d='M0 0'/><rays/></g><circle cx='1' cy='2' r='3'/>" =
          .ok groups ∧
        Flattens (glyphEvents
          "<g fill='#fc0'><path d='M0 0'/><rays/></g><circle cx='1' cy='2' r='3'/>").events groups ∧
        groups.length = 3 := by
  have parsed : failure? (parseGlyph
      "<g fill='#fc0'><path d='M0 0'/><rays/></g><circle cx='1' cy='2' r='3'/>") = none := by
    decide +kernel
  rcases failure?_eq_none_iff.mp parsed with ⟨groups, read⟩
  have flat := (parseGlyph_flattens _).2.2.1 groups read
  exact ⟨groups, read, flat, flat.length_eq.trans (by decide +kernel)⟩

end TikzGlyph
