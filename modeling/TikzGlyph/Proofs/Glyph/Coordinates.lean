import TikzGlyph.Proofs.Binary64.Arithmetic
import TikzGlyph.Proofs.Drawing.Stroke
import TikzGlyph.Proofs.Glyph.Flattening

/-!
# Coordinates of glyphs

The coordinates of an element are those of its strokes, and drawing changes none of them. A glyph is
built from elements whose coordinates have been checked when they were read, so all coordinates of a
glyph are finite, and a coordinate that is written but not finite stops the reading.
-/

namespace TikzGlyph

def Transform.numbers (transform : Transform) : List Binary64 :=
  [transform.x, transform.y, transform.scale, transform.rotate]

/-- The numbers among the arguments of a call. -/
def Call.numbers : Call → List Binary64
  | .beginPlacement transform => transform.numbers
  | .circle centerX centerY radius _ => [centerX, centerY, radius]
  | .ellipse centerX centerY radiusX radiusY _ => [centerX, centerY, radiusX, radiusY]
  | _ => []

def Stroke.numbers : Stroke → List Binary64
  | .beginPlacement transform => transform.numbers
  | .circle centerX centerY radius _ => [centerX, centerY, radius]
  | .ellipse centerX centerY radiusX radiusY _ => [centerX, centerY, radiusX, radiusY]
  | _ => []

namespace Element

mutual

/-- The coordinates and radii of an element. -/
def numbers : Element → List Binary64
  | .path _ _ => []
  | .circle centerX centerY radius _ => [centerX, centerY, radius]
  | .ellipse centerX centerY radiusX radiusY _ => [centerX, centerY, radiusX, radiusY]
  | .group _ children => numbersOfAll children

def numbersOfAll : List Element → List Binary64
  | [] => []
  | element :: rest => element.numbers ++ numbersOfAll rest

end

end Element

/-- The coordinates and radii of a glyph. -/
def glyphNumbers (groups : List Group) : List Binary64 :=
  groups.flatMap fun group => group.element.numbers

/-! ## Numbers that are drawn -/

theorem Stroke.numbers_withArgument (stroke : Stroke) (argument : Option Nat) :
    (stroke.withArgument argument).numbers = stroke.numbers := by
  cases stroke <;> rfl

mutual

theorem Element.numbers_eq_strokes (element : Element) :
    element.numbers = element.strokes.flatMap Stroke.numbers := by
  cases element with
  | path data fill => rfl
  | circle centerX centerY radius fill => rfl
  | ellipse centerX centerY radiusX radiusY fill => rfl
  | group fill children =>
      rw [Element.numbers, Element.strokes, numbersOfAll_eq_strokes children]
      simp [Stroke.numbers]

theorem Element.numbersOfAll_eq_strokes (elements : List Element) :
    Element.numbersOfAll elements = (Element.strokesOfAll elements).flatMap Stroke.numbers := by
  cases elements with
  | nil => rfl
  | cons first rest =>
      rw [Element.numbersOfAll, Element.strokesOfAll, List.flatMap_append,
        numbers_eq_strokes first, numbersOfAll_eq_strokes rest]

end

/-- A placed glyph is drawn with the numbers of its transform and of its elements. -/
theorem numbers_placementStrokes (transform : Transform) (glyph : List Group) :
    (placementStrokes transform glyph).flatMap Stroke.numbers =
      transform.numbers ++ glyphNumbers glyph := by
  have glyphEq : (glyph.flatMap fun group => group.element.strokes).flatMap Stroke.numbers =
      glyphNumbers glyph := by
    rw [List.flatMap_assoc]
    simp only [glyphNumbers, Element.numbers_eq_strokes]
  rw [placementStrokes, List.flatMap_cons, List.flatMap_append, glyphEq]
  simp [Stroke.numbers]

/-- The calls of strokes have their numbers. -/
theorem Palette.Completes.numbers {palette : Palette} {strokes : List Stroke} {calls : List Call}
    (called : palette.Completes strokes calls) :
    calls.flatMap Call.numbers = strokes.flatMap Stroke.numbers := by
  rw [List.flatMap_def, List.flatMap_def, called.map_eq Stroke.numbers_withArgument]

/-! ## Numbers that are read -/

namespace GlyphEvent

theorem isFinite_of_number? {attributes : Attributes} {name : String} {number : Binary64}
    (read : attributes.number? name = some number) : number.IsFinite := by
  rcases Option.bind_eq_some_iff.mp read with ⟨value, _, read⟩
  rcases Option.bind_eq_some_iff.mp read with ⟨unchecked, _, finite⟩
  exact Binary64.isFinite_of_finite? finite

theorem isFinite_of_element? {event : GlyphEvent} {element : Element}
    (described : event.element? = some element) :
    ∀ number ∈ element.numbers, number.IsFinite := by
  cases event with
  | closing tag location => simp [element?] at described
  | opening tag attributes location =>
      cases tag with
      | path =>
          simp only [element?, Option.bind_eq_bind, Option.bind_eq_some_iff, Option.pure_def,
            Option.some.injEq] at described
          rcases described with ⟨data, _, rfl⟩
          simp [Element.numbers]
      | circle =>
          simp only [element?, Option.bind_eq_bind, Option.bind_eq_some_iff, Option.pure_def,
            Option.some.injEq] at described
          rcases described with ⟨centerX, xRead, centerY, yRead, radius, radiusRead, rfl⟩
          simp [Element.numbers, isFinite_of_number? xRead, isFinite_of_number? yRead,
            isFinite_of_number? radiusRead]
      | ellipse =>
          simp only [element?, Option.bind_eq_bind, Option.bind_eq_some_iff, Option.pure_def,
            Option.some.injEq] at described
          rcases described with
            ⟨centerX, xRead, centerY, yRead, radiusX, rxRead, radiusY, ryRead, rfl⟩
          simp [Element.numbers, isFinite_of_number? xRead, isFinite_of_number? yRead,
            isFinite_of_number? rxRead, isFinite_of_number? ryRead]
      | group => simp [element?] at described
      | unrecognized name => simp [element?] at described

end GlyphEvent

theorem Element.numbersOfAll_append (left right : List Element) :
    Element.numbersOfAll (left ++ right) =
      Element.numbersOfAll left ++ Element.numbersOfAll right := by
  induction left with
  | nil => rfl
  | cons first rest ih => rw [List.cons_append, numbersOfAll, numbersOfAll, ih, List.append_assoc]

namespace Builder

/-- The numbers of a glyph under construction are those of its earlier groups and of the last
one. -/
theorem glyphNumbers_groups (builder : Builder) :
    glyphNumbers builder.groups =
      glyphNumbers builder.earlier.reverse ++ Element.numbersOfAll builder.last.children := by
  simp [groups, glyphNumbers, Group.element, Element.numbers]

/-- Handling an event adds finite numbers only. -/
theorem isFinite_of_handle {builder next : Builder} {event : GlyphEvent}
    (handled : builder.handle event = .ok next)
    (finite : ∀ number ∈ glyphNumbers builder.groups, number.IsFinite) :
    ∀ number ∈ glyphNumbers next.groups, number.IsFinite := by
  rcases handle_cases handled with
    ⟨_, _, rfl⟩ | ⟨_, _, element, described, rfl⟩ | ⟨_, _, rfl⟩
  · have nothingAdded : glyphNumbers
        (groups ⟨builder.last :: builder.earlier, .empty event.groupFill⟩) =
          glyphNumbers builder.groups := by
      rw [glyphNumbers_groups]
      exact List.append_nil _
    rw [nothingAdded]
    exact finite
  · have elementAdded : glyphNumbers
        (groups ⟨builder.earlier, builder.last.fill, builder.last.children ++ [element]⟩) =
          glyphNumbers builder.groups ++ element.numbers := by
      rw [glyphNumbers_groups, glyphNumbers_groups, Element.numbersOfAll_append, List.append_assoc]
      simp [Element.numbersOfAll]
    rw [elementAdded, List.forall_mem_append]
    exact ⟨finite, GlyphEvent.isFinite_of_element? described⟩
  · exact finite

/-- Every event that is handled keeps all coordinates finite, and so do all events of a source. -/
theorem isFinite_of_foldlM {builder final : Builder} {events : List GlyphEvent}
    (handled : events.foldlM handle builder = .ok final)
    (finite : ∀ number ∈ glyphNumbers builder.groups, number.IsFinite) :
    ∀ number ∈ glyphNumbers final.groups, number.IsFinite := by
  induction events generalizing builder with
  | nil =>
      cases handled
      exact finite
  | cons event rest ih =>
      rcases foldlM_cons_eq_ok_iff.mp handled with ⟨next, firstHandled, restHandled⟩
      exact ih restHandled (isFinite_of_handle firstHandled finite)

end Builder

theorem isFinite_of_parseGlyph {source : String} {groups : List Group}
    (parsed : parseGlyph source = .ok groups) :
    ∀ number ∈ glyphNumbers groups, number.IsFinite := by
  rcases exists_foldlM_of_parseGlyph parsed with ⟨builder, handled, rfl⟩
  apply Builder.isFinite_of_foldlM handled
  intro number numberMem
  cases numberMem

/-- A number that a tag demands and that is written but not finite stops the reading. -/
theorem exists_error_of_not_finite {source : String} {tag : Tag} {attributes : Attributes}
    {location : Location} {name value : String}
    (opened : .opening tag attributes location ∈ (glyphEvents source).events)
    (demanded : .number name ∈ tag.demands)
    (written : attributes.get? name = some value)
    (notFinite : ∀ number, Binary64.ofChars? (trimBlank value.toList) = some number →
      ¬number.IsFinite) :
    ∃ cause, parseGlyph source = .error cause := by
  cases parsed : parseGlyph source with
  | error cause => exact ⟨cause, rfl⟩
  | ok groups =>
      have noFault := failure?_parseGlyph source
      rw [parsed] at noFault
      have eventValid := List.findSome?_eq_none_iff.mp
        (Option.or_eq_none_iff.mp noFault.symm).1 _ opened
      rcases GlyphEvent.isValid_iff.mpr eventValid _ demanded with
        ⟨found, number, foundEq, read, finite⟩
      rw [written] at foundEq
      cases foundEq
      exact (notFinite number read finite).elim

end TikzGlyph
