import TikzGlyph.Proofs.Drawing.Stroke
import TikzGlyph.Proofs.Glyph.Flattening

/-!
# Path data

Path data is never looked into. It goes from the tag of a path into the glyph, and from the glyph
into the calls of a drawing, in document order and as it stands.
-/

namespace TikzGlyph

namespace Element

mutual

/-- The data of the paths of an element in drawing order. -/
def pathData : Element → List String
  | .path data _ => [data]
  | .circle _ _ _ _ => []
  | .ellipse _ _ _ _ _ => []
  | .group _ children => pathDataOfAll children

def pathDataOfAll : List Element → List String
  | [] => []
  | element :: rest => element.pathData ++ pathDataOfAll rest

end

theorem pathDataOfAll_append (left right : List Element) :
    pathDataOfAll (left ++ right) = pathDataOfAll left ++ pathDataOfAll right := by
  induction left with
  | nil => rfl
  | cons first rest ih =>
      rw [List.cons_append, pathDataOfAll, ih, pathDataOfAll, List.append_assoc]

end Element

/-- The data of the paths of a glyph in drawing order. -/
def glyphPathData (glyph : List Group) : List String :=
  glyph.flatMap fun group => group.element.pathData

/-! ## From tags to glyphs -/

namespace GlyphEvent

def pathData? : GlyphEvent → Option String
  | .opening .path attributes _ => attributes.get? "d"
  | _ => none

variable {event : GlyphEvent}

theorem pathData?_of_not_isDrawing (plain : event.isDrawing = false) : event.pathData? = none := by
  cases event with
  | closing tag location => rfl
  | opening tag attributes location => cases tag <;> first | rfl | cases plain

theorem pathData_of_element? {element : Element} (described : event.element? = some element) :
    element.pathData = event.pathData?.toList := by
  cases event with
  | closing tag location => cases described
  | opening tag attributes location =>
      cases tag with
      | group => cases described
      | unrecognized name => cases described
      | path =>
          rcases Option.bind_eq_some_iff.mp described with ⟨data, found, ⟨⟩⟩
          rw [pathData?, found]
          rfl
      | circle =>
          simp only [element?, bind, Option.bind_eq_some_iff, pure] at described
          rcases described with ⟨_, _, _, _, _, _, ⟨⟩⟩
          rfl
      | ellipse =>
          simp only [element?, bind, Option.bind_eq_some_iff, pure] at described
          rcases described with ⟨_, _, _, _, _, _, _, _, ⟨⟩⟩
          rfl

end GlyphEvent

/-- Building adds the data of every path, in the order of the events. -/
theorem Builder.glyphPathData_foldlM {builder final : Builder} {events : List GlyphEvent}
    (handled : events.foldlM handle builder = .ok final) :
    glyphPathData final.groups =
      glyphPathData builder.groups ++ events.filterMap GlyphEvent.pathData? := by
  induction events generalizing builder with
  | nil =>
      cases handled
      simp
  | cons event rest ih =>
      rcases foldlM_cons_eq_ok_iff.mp handled with ⟨next, handled, read⟩
      rw [ih read]
      rcases handle_cases handled with
        ⟨_, plain, rfl⟩ | ⟨_, _, element, described, rfl⟩ | ⟨_, plain, rfl⟩
      · simp [glyphPathData, groups, Group.empty, Group.element, Element.pathData,
          Element.pathDataOfAll, GlyphEvent.pathData?_of_not_isDrawing plain]
      · have sameData := GlyphEvent.pathData_of_element? described
        cases drawn : event.pathData? <;>
          simp [glyphPathData, groups, Group.element, Element.pathData,
            Element.pathDataOfAll_append, Element.pathDataOfAll, sameData, drawn]
      · simp [GlyphEvent.pathData?_of_not_isDrawing plain]

/-! ## From glyphs to calls -/

def Stroke.pathData? : Stroke → Option String
  | .path data _ => some data
  | _ => none

def Call.pathData? : Call → Option String
  | .path data _ => some data
  | _ => none

mutual

theorem Element.pathData_eq_strokes (element : Element) :
    element.pathData = element.strokes.filterMap Stroke.pathData? := by
  cases element with
  | path data fill => rfl
  | circle centerX centerY radius fill => rfl
  | ellipse centerX centerY radiusX radiusY fill => rfl
  | group fill children =>
      have closingData : [Stroke.endScope].filterMap Stroke.pathData? = [] := rfl
      rw [Element.pathData, Element.strokes, pathDataOfAll_eq_strokes children,
        List.filterMap_cons_none rfl, List.filterMap_append, closingData, List.append_nil]

theorem Element.pathDataOfAll_eq_strokes (elements : List Element) :
    Element.pathDataOfAll elements =
      (Element.strokesOfAll elements).filterMap Stroke.pathData? := by
  cases elements with
  | nil => rfl
  | cons first rest =>
      rw [Element.pathDataOfAll, Element.strokesOfAll, List.filterMap_append,
        pathData_eq_strokes first, pathDataOfAll_eq_strokes rest]

end

theorem glyphPathData_eq_strokes (transform : Transform) (glyph : List Group) :
    glyphPathData glyph = (placementStrokes transform glyph).filterMap Stroke.pathData? := by
  have closingData : [Stroke.endScope].filterMap Stroke.pathData? = [] := rfl
  rw [placementStrokes, List.filterMap_cons_none rfl, List.filterMap_append, closingData,
    List.append_nil, List.filterMap_flatMap]
  simp only [glyphPathData, Element.pathData_eq_strokes]

/-- The calls of a drawing have the path data of its strokes. -/
theorem Palette.Completes.pathData {palette : Palette} {strokes : List Stroke} {calls : List Call}
    (called : palette.Completes strokes calls) :
    calls.filterMap Call.pathData? = strokes.filterMap Stroke.pathData? := by
  have dataEq : calls.map Call.pathData? = strokes.map Stroke.pathData? := by
    apply called.map_eq
    intro stroke argument
    cases stroke <;> rfl
  have kept := congrArg (List.filterMap id) dataEq
  rw [List.filterMap_map, List.filterMap_map] at kept
  exact kept

end TikzGlyph
