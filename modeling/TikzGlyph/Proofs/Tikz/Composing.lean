import TikzGlyph.Proofs.Drawing.Decoding
import TikzGlyph.Proofs.Tikz.History

/-!
# Composed texts

The text of a placed glyph is made on one writer that goes through all groups, while the text of a
group is made on a writer of its own. This file shows that it makes no difference: what is written
for a scope is the line that opens it, the texts of its parts as each of them is written alone, and
the line that closes it, and the fault of a scope is the fault of its first part that has one. The
reason is that a writer whose scopes are balanced writes the directives of its calls and nothing
else, so that texts are joined where calls are.
-/

namespace TikzGlyph

/-- The calls of strokes, or the fault of the first stroke that has no call. -/
def Palette.callsOf (palette : Palette) (strokes : List Stroke) : Except RenderError (List Call) :=
  strokes.mapM (Stroke.call palette)

namespace Tikz

/-- The directives of calls, joined by newlines. -/
def textOf (calls : List Call) : String := "\n".intercalate (calls.map directive)

/-- The text of a scope: the line that opens it, the texts of its parts, the line that closes it. -/
def scopeText (opening : String) (parts : List String) : String :=
  "\n".intercalate (opening :: (parts ++ [closeScope]))

end Tikz

open Tikz

/-! ## Calls of strokes -/

namespace Palette

theorem callsOf_cons (palette : Palette) (stroke : Stroke) (rest : List Stroke) :
    palette.callsOf (stroke :: rest) = (do
      let call ← stroke.call palette
      let calls ← palette.callsOf rest
      return call :: calls) := by
  rw [callsOf, List.mapM_cons]
  rfl

theorem callsOf_append (palette : Palette) (left right : List Stroke) :
    palette.callsOf (left ++ right) = (do
      let leftCalls ← palette.callsOf left
      let rightCalls ← palette.callsOf right
      return leftCalls ++ rightCalls) := by
  rw [callsOf, List.mapM_append]
  rfl

/-- A script has the calls of its strokes, or their fault. -/
theorem callsOf_eq_script (palette : Palette) (strokes : List Stroke) :
    palette.callsOf strokes =
      (palette.script strokes).ending.map fun _ => (palette.script strokes).calls := by
  induction strokes with
  | nil => rfl
  | cons first rest ih =>
      rw [callsOf_cons, script, ih]
      cases first.call palette with
      | error cause => rfl
      | ok call => cases ended : (palette.script rest).ending <;> simp [Script.cons, ended] <;> rfl

/-- The calls of several elements are those of each of them. -/
theorem callsOf_strokesOfAll (palette : Palette) (elements : List Element) :
    palette.callsOf (Element.strokesOfAll elements) =
      (elements.mapM fun element => palette.callsOf element.strokes).map List.flatten := by
  induction elements with
  | nil => rfl
  | cons first rest ih =>
      rw [Element.strokesOfAll, callsOf_append, ih, List.mapM_cons]
      cases palette.callsOf first.strokes with
      | error cause => rfl
      | ok firstCalls =>
          cases rest.mapM fun element => palette.callsOf element.strokes with
          | error cause => rfl
          | ok restCalls => rfl

theorem ne_nil_of_callsOf_strokes {palette : Palette} {element : Element} {calls : List Call}
    (called : palette.callsOf element.strokes = .ok calls) : calls ≠ [] := by
  rintro rfl
  have lengths := congrArg List.length (mapM_eq_ok_iff.mp called)
  cases element <;> simp [Element.strokes] at lengths

end Palette

/-! ## Writers -/

namespace Tikz

theorem Writer.run_of_balanced {palette : Palette} {strokes : List Stroke}
    (balanced : strokes.foldlM Stroke.depthAfter? 0 = some 0) :
    run (Drawing.perform (palette.script strokes)) = (palette.callsOf strokes).map textOf := by
  rw [Palette.callsOf_eq_script]
  rcases Palette.script_complete_or_stops palette strokes with ⟨calls, scriptEq, called⟩ |
    ⟨before, stroke, after, calls, cause, rfl, scriptEq, called, _⟩
  · have callsBalanced : calls.foldlM depthAfter? 0 = some 0 := by
      rw [called.depthAfter?, balanced]
    rw [scriptEq, run_perform callsBalanced, appendCalls_empty]
    rfl
  · rw [List.foldlM_append] at balanced
    rcases Option.bind_eq_some_iff.mp balanced with ⟨depth, beforeScanned, _⟩
    rw [← called.depthAfter?] at beforeScanned
    rw [scriptEq]
    simp only [run, Drawing.perform, Drawing.run_bind, empty, run_calls "" beforeScanned]
    rfl

theorem emit_eq (element : Element) (palette : Palette) :
    emit element palette = (palette.callsOf element.strokes).map textOf := by
  rw [emit, Drawing.element_eq_perform]
  exact Writer.run_of_balanced (element.depthAfter?_strokes 0)

theorem place_eq (transform : Transform) (glyph : List Group) (palette : Palette) :
    place transform glyph palette =
      (palette.callsOf (placementStrokes transform glyph)).map textOf := by
  rw [place, Drawing.place_eq_perform]
  exact Writer.run_of_balanced (depthAfter?_placementStrokes transform glyph 0)

/-! ## Texts of scopes -/

theorem intercalate_flatten {separator : String} {lists : List (List String)}
    (notEmpty : ∀ list ∈ lists, list ≠ []) :
    separator.intercalate lists.flatten =
      separator.intercalate (lists.map separator.intercalate) := by
  induction lists with
  | nil => rfl
  | cons first rest ih =>
      rw [List.forall_mem_cons] at notEmpty
      cases rest with
      | nil => simp
      | cons second rest =>
          have restNotEmpty : (second :: rest).flatten ≠ [] := by
            rw [List.flatten_cons]
            exact List.append_ne_nil_of_left_ne_nil
              (notEmpty.2 second List.mem_cons_self) rest.flatten
          rw [List.flatten_cons, String.intercalate_append_of_ne_nil notEmpty.1 restNotEmpty,
            ih notEmpty.2]
          simp only [List.map_cons, String.intercalate_cons_cons]

theorem textOf_scope (opening : Call) {lists : List (List Call)}
    (notEmpty : ∀ calls ∈ lists, calls ≠ []) :
    textOf (opening :: (lists.flatten ++ [.endScope])) =
      scopeText (directive opening) (lists.map textOf) := by
  have split : (opening :: (lists.flatten ++ [.endScope])).map directive =
      ([directive opening] :: (lists.map (List.map directive) ++ [[closeScope]])).flatten := by
    simp only [List.map_cons, List.map_append, List.map_flatten, List.map_nil, List.flatten_cons,
      List.flatten_append, List.flatten_nil, List.append_nil, List.singleton_append]
    rfl
  have partsNotEmpty :
      ∀ part ∈ [directive opening] :: (lists.map (List.map directive) ++ [[closeScope]]),
        part ≠ [] := by
    intro part partMem
    simp only [List.mem_cons, List.mem_append, List.mem_map, List.not_mem_nil, or_false] at partMem
    rcases partMem with rfl | ⟨calls, callsMem, rfl⟩ | rfl
    · simp
    · simpa using notEmpty calls callsMem
    · simp
  rw [textOf, split, intercalate_flatten partsNotEmpty, scopeText]
  simp only [List.map_cons, List.map_append, List.map_map, List.map_nil,
    String.intercalate_singleton]
  rfl

theorem mapM_emit_eq (palette : Palette) (elements : List Element) :
    (elements.mapM fun element => emit element palette) =
      (elements.mapM fun element => palette.callsOf element.strokes).map (List.map textOf) := by
  induction elements with
  | nil => rfl
  | cons first rest ih =>
      rw [List.mapM_cons, List.mapM_cons, ih, emit_eq]
      cases palette.callsOf first.strokes with
      | error cause => rfl
      | ok firstCalls =>
          cases rest.mapM fun element => palette.callsOf element.strokes with
          | error cause => rfl
          | ok restCalls => rfl

theorem ne_nil_of_mapM_callsOf {palette : Palette} {elements : List Element}
    {lists : List (List Call)}
    (called : (elements.mapM fun element => palette.callsOf element.strokes) = .ok lists) :
    ∀ calls ∈ lists, calls ≠ [] := by
  intro calls callsMem
  have callMade : (.ok calls : Except RenderError (List Call)) ∈ lists.map .ok :=
    List.mem_map_of_mem callsMem
  rw [← mapM_eq_ok_iff.mp called] at callMade
  rcases List.mem_map.mp callMade with ⟨element, _, elementCalled⟩
  exact Palette.ne_nil_of_callsOf_strokes elementCalled

/-- Around some elements, an opening stroke and the end of its scope are written as the text of a
scope whose parts are the texts of the elements. -/
theorem map_textOf_enclosed {palette : Palette} {opening : Stroke} {call : Call}
    (called : opening.call palette = .ok call) (elements : List Element) :
    (palette.callsOf (opening :: (Element.strokesOfAll elements ++ [.endScope]))).map textOf =
      (elements.mapM fun element => emit element palette).map (scopeText (directive call)) := by
  have ended : palette.callsOf [.endScope] = .ok [.endScope] := rfl
  rw [Palette.callsOf_cons, called, Palette.callsOf_append, Palette.callsOf_strokesOfAll, ended,
    mapM_emit_eq]
  cases listsEq : elements.mapM fun element => palette.callsOf element.strokes with
  | error cause => rfl
  | ok lists => exact congrArg Except.ok (textOf_scope call (ne_nil_of_mapM_callsOf listsEq))

/-- A result is what is written for a scope with options: with the texts of all parts it is the text
of the scope, and otherwise it is the fault of the first part that has one. -/
structure Encloses (options : String) (parts : List (Except RenderError String))
    (result : Except RenderError String) : Prop where
  eq_ok_iff : ∀ text, result = .ok text ↔
    ∃ texts, parts = texts.map .ok ∧
      text = "\n".intercalate
        (("\\begin\x7bscope\x7d[" ++ options ++ "]") :: (texts ++ ["\\end\x7bscope\x7d"]))
  eq_error_iff : ∀ cause, result = .error cause ↔
    ∃ (texts : List String) (later : List (Except RenderError String)),
      parts = texts.map .ok ++ .error cause :: later

theorem encloses_mapM (options : String) (palette : Palette) (elements : List Element) :
    Encloses options (elements.map fun element => emit element palette)
      ((elements.mapM fun element => emit element palette).map
        (scopeText (openScope options))) := by
  refine ⟨?_, ?_⟩
  · intro text
    rw [map_eq_ok_iff]
    exact exists_congr fun texts => and_congr mapM_eq_ok_iff eq_comm
  · intro cause
    rw [map_eq_error_iff, mapM_eq_error_iff]

/-! ## Faults -/

theorem exists_unregistered_of_callsOf {palette : Palette} {strokes : List Stroke}
    {cause : RenderError} (failed : (palette.callsOf strokes).map textOf = .error cause) :
    ∃ color, cause = .palette (.unregistered color) := by
  rw [Palette.callsOf_eq_script, map_eq_error_iff, map_eq_error_iff] at failed
  rcases palette.ending_script_cases strokes with ended | ⟨color, ended⟩
  · rw [ended] at failed
    cases failed
  · rw [ended] at failed
    cases failed
    exact ⟨color, rfl⟩

/-- The texts of groups are composed. A placed glyph is written as the scope of its placement around
the texts of its groups. A group is written as its own scope around the texts of its elements,
unless the palette lacks its fill. What is written never fails for a reason of the writer. -/
theorem place_and_emit_composed (palette : Palette) :
    (∀ transform glyph,
      Encloses (placementOptions transform)
        (glyph.map fun group => emit group.element palette) (place transform glyph palette)) ∧
      (∀ group : Group,
        (∀ cause, palette.resolve group.fill = .error cause →
          emit group.element palette = .error cause) ∧
        ∀ argument, palette.resolve group.fill = .ok argument →
          Encloses (fillOption argument)
            (group.children.map fun child => emit child palette)
            (emit group.element palette)) ∧
      (∀ element cause, emit element palette = .error cause →
        ∃ color, cause = .palette (.unregistered color)) ∧
      (∀ transform glyph cause, place transform glyph palette = .error cause →
        ∃ color, cause = .palette (.unregistered color)) ∧
      ∃ text, paletteText palette = .ok text := by
  refine ⟨?_, ?_, ?_, ?_, exists_paletteText palette⟩
  · intro transform glyph
    have called : (Stroke.beginPlacement transform).call palette =
        .ok (.beginPlacement transform) := rfl
    have enclosed := map_textOf_enclosed called (glyph.map Group.element)
    have composed := encloses_mapM (placementOptions transform) palette
      (glyph.map Group.element)
    rw [Element.strokesOfAll_map_element] at enclosed
    rw [List.map_map] at composed
    rw [place_eq, placementStrokes, enclosed]
    exact composed
  · intro group
    rw [emit_eq, Group.element, Element.strokes]
    refine ⟨?_, ?_⟩
    · intro cause unresolved
      have refused : (Stroke.beginGroup group.fill).call palette = .error cause := by
        simp only [Stroke.call, Stroke.fill?, unresolved]
        rfl
      rw [Palette.callsOf_cons, refused]
      rfl
    · intro argument resolved
      have called : (Stroke.beginGroup group.fill).call palette = .ok (.beginGroup argument) := by
        simp only [Stroke.call, Stroke.fill?, resolved]
        rfl
      rw [map_textOf_enclosed called]
      exact encloses_mapM (fillOption argument) palette group.children
  · intro element cause failed
    rw [emit_eq] at failed
    exact exists_unregistered_of_callsOf failed
  · intro transform glyph cause failed
    rw [place_eq] at failed
    exact exists_unregistered_of_callsOf failed

end Tikz

end TikzGlyph
