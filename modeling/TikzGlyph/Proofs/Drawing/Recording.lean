import TikzGlyph.Drawing.Recorder
import TikzGlyph.Proofs.Drawing.Stroke

/-!
# Recorded drawings

What a recorder that never fails receives from a drawing. The fill arguments of the recorded calls
are the fills of the elements, walked over in order and resolved one by one. With every index
replaced by the colour that the palette's own definitions bind to it, the calls become the strokes
of the drawing, in which no palette occurs. A drawing whose palette lacks a fill stops right before
the stroke of the first such fill. The main statement says all of this about elements and about
placed glyphs.
-/

namespace TikzGlyph

/-! ## Colours behind indices -/

/-- The colour that a call binds to an index. -/
def Call.binds? (index : Nat) : Call → Option Color
  | .define defined color => if defined = index then some color else none
  | _ => none

/-- The colour that a list of calls binds to an index. -/
def boundColor? (calls : List Call) (index : Nat) : Option Color :=
  calls.findSome? (Call.binds? index)

/-- A fill argument with its index replaced by a colour, unless nothing is bound to the index. -/
def paintArgument? (colorOf : Nat → Option Color) : Option Nat → Option (Option Color)
  | none => some none
  | some index => (colorOf index).map some

/-- A call with its index replaced by a colour. Definitions are no part of a picture. -/
def Call.paint? (colorOf : Nat → Option Color) : Call → Option Stroke
  | .define _ _ => none
  | .beginGroup fill => (paintArgument? colorOf fill).map .beginGroup
  | .beginPlacement transform => some (.beginPlacement transform)
  | .endScope => some .endScope
  | .circle centerX centerY radius fill =>
      (paintArgument? colorOf fill).map (.circle centerX centerY radius)
  | .ellipse centerX centerY radiusX radiusY fill =>
      (paintArgument? colorOf fill).map (.ellipse centerX centerY radiusX radiusY)
  | .path data fill => (paintArgument? colorOf fill).map (.path data)

/-- A stroke is recovered from its call when its own fill is recovered from the argument. -/
theorem Stroke.paint_withArgument {colorOf : Nat → Option Color} {stroke : Stroke}
    {argument : Option Nat}
    (painted : ∀ fill, stroke.fill? = some fill → paintArgument? colorOf argument = some fill) :
    (stroke.withArgument argument).paint? colorOf = some stroke := by
  cases stroke with
  | beginPlacement transform => rfl
  | endScope => rfl
  | beginGroup fill => simp [withArgument, Call.paint?, painted fill rfl]
  | circle centerX centerY radius fill => simp [withArgument, Call.paint?, painted fill rfl]
  | ellipse centerX centerY radiusX radiusY fill =>
      simp [withArgument, Call.paint?, painted fill rfl]
  | path data fill => simp [withArgument, Call.paint?, painted fill rfl]

theorem boundColor?_define_zipIdx (colors : List Color) (start offset : Nat) :
    boundColor? ((colors.zipIdx start).map fun entry => .define entry.2 entry.1)
      (start + offset) = colors[offset]? := by
  induction colors generalizing start offset with
  | nil => rfl
  | cons first rest ih =>
      cases offset with
      | zero => simp [boundColor?, Call.binds?]
      | succ offset =>
          have restBound := ih (start + 1) offset
          have placeEq : start + 1 + offset = start + (offset + 1) := by omega
          rw [placeEq] at restBound
          simpa [boundColor?, Call.binds?] using restBound

/-! ## Recorders that never fail -/

namespace Recorder

theorem run_calls (calls earlier : List Call) :
    (Drawing.calls calls).run.run (⟨earlier, none⟩ : Recorder) =
      (.ok (), ⟨earlier ++ calls, none⟩) := by
  induction calls generalizing earlier with
  | nil => simp [Drawing.calls]; rfl
  | cons first rest ih =>
      rw [Drawing.calls, Drawing.run_bind]
      change (Drawing.calls rest).run.run (⟨earlier ++ [first], none⟩ : Recorder) = _
      rw [ih, List.append_assoc, List.singleton_append]

theorem record_perform (script : Script) :
    record (Drawing.perform script) none = (script.calls, script.ending) := by
  have runEq : (Drawing.perform script).run.run (start none) =
      (script.ending, ⟨script.calls, none⟩) := by
    rw [Drawing.perform, Drawing.run_bind, start, run_calls, List.nil_append]
    rfl
  simp only [record, runEq]

/-- The definitions of a palette bind every index to the colour that has it. -/
theorem boundColor?_palette (palette : Palette) :
    boundColor? (record (Drawing.palette palette) none).1 =
      fun index => palette.colors[index]? := by
  funext index
  have bound := boundColor?_define_zipIdx palette.colors 0 index
  rw [Nat.zero_add] at bound
  rw [Drawing.palette_eq_perform, record_perform, Palette.definitionScript, Palette.entries,
    List.map_map]
  exact bound

end Recorder

/-! ## Calls and the strokes behind them -/

theorem paintArgument?_of_resolve {palette : Palette} {fill : Option Color}
    {argument : Option Nat} (resolved : palette.resolve fill = .ok argument) :
    paintArgument? (fun index => palette.colors[index]?) argument = some fill := by
  rcases Palette.resolve_eq_ok_iff.mp resolved with ⟨rfl, rfl⟩ | ⟨color, index, rfl, rfl, found⟩
  · rfl
  · rw [paintArgument?, Palette.index_eq_ok_iff.mp found]
    rfl

namespace Stroke

/-- The call of a stroke has an argument exactly if the stroke has a fill, and it is the resolved
fill. -/
theorem resolve_of_call {palette : Palette} {stroke : Stroke} {call : Call}
    (called : stroke.call palette = .ok call) :
    (stroke.fill? = none ∧ call.fill? = none) ∨
      ∃ fill argument, stroke.fill? = some fill ∧ call.fill? = some argument ∧
        palette.resolve fill = .ok argument := by
  rcases call_eq_ok_iff.mp called with ⟨noFill, rfl⟩ | ⟨fill, argument, filled, resolved, rfl⟩
  · exact Or.inl ⟨noFill, by simp [withArgument_fill?, noFill]⟩
  · exact Or.inr ⟨fill, argument, filled, by simp [withArgument_fill?, filled], resolved⟩

theorem paint_of_call {palette : Palette} {stroke : Stroke} {call : Call}
    (called : stroke.call palette = .ok call) :
    call.paint? (fun index => palette.colors[index]?) = some stroke := by
  rcases call_eq_ok_iff.mp called with ⟨noFill, rfl⟩ | ⟨fill, argument, filled, resolved, rfl⟩
  · apply paint_withArgument
    intro other otherFilled
    rw [noFill] at otherFilled
    cases otherFilled
  · apply paint_withArgument
    intro other otherFilled
    rw [filled] at otherFilled
    cases otherFilled
    exact paintArgument?_of_resolve resolved

end Stroke

namespace Palette

/-- The fill arguments of calls are the resolved fills of their strokes, in order. -/
theorem Completes.resolved {palette : Palette} {strokes : List Stroke} {calls : List Call}
    (called : palette.Completes strokes calls) :
    List.Forall₂ (fun fill argument => palette.resolve fill = .ok argument)
      (strokes.filterMap Stroke.fill?) (calls.filterMap Call.fill?) := by
  induction called with
  | nil => exact .nil
  | cons firstCalled restCalled ih =>
      rcases Stroke.resolve_of_call firstCalled with ⟨noFill, noArgument⟩ |
        ⟨fill, argument, fillEq, argumentEq, resolved⟩
      · rw [List.filterMap_cons_none noFill, List.filterMap_cons_none noArgument]
        exact ih
      · rw [List.filterMap_cons_some fillEq, List.filterMap_cons_some argumentEq]
        exact .cons resolved ih

/-- Painted calls are their strokes, in order. -/
theorem Completes.painted {palette : Palette} {strokes : List Stroke} {calls : List Call}
    (called : palette.Completes strokes calls) :
    calls.map (Call.paint? fun index => palette.colors[index]?) = strokes.map some := by
  induction called with
  | nil => rfl
  | cons firstCalled restCalled ih =>
      rw [List.map_cons, List.map_cons, Stroke.paint_of_call firstCalled, ih]

end Palette

/-! ## Drawings of strokes -/

/-- A drawing with a palette as its parameter draws strokes, and `fills` are the fills it walks
over. The fields say when it succeeds, what a recorder receives then, and where it stops otherwise.
-/
structure Draws (drawing : Palette → Drawing Recorder Unit) (fills : List (Option Color))
    (strokes : List Stroke) : Prop where
  /-- The drawing succeeds exactly if every present fill is in the palette. -/
  succeeds_iff : ∀ palette,
    (Recorder.record (drawing palette) none).2 = .ok () ↔
      ∀ color, some color ∈ fills → palette.contains color = true
  /-- The fill arguments are the fills in order, a colour as its index and an absent fill absent. -/
  resolved : ∀ palette, (Recorder.record (drawing palette) none).2 = .ok () →
    List.Forall₂ (fun fill argument => palette.resolve fill = .ok argument) fills
      ((Recorder.record (drawing palette) none).1.filterMap Call.fill?)
  /-- With the colours that the palette's definitions bind to the indices, the calls are the
  strokes, whatever the palette. -/
  painted : ∀ palette, (Recorder.record (drawing palette) none).2 = .ok () →
    (Recorder.record (drawing palette) none).1.map
        (Call.paint? (boundColor? (Recorder.record (Drawing.palette palette) none).1)) =
      strokes.map some
  /-- A drawing that fails stops at the first fill that the palette lacks: it names this fill, the
  calls so far are those of the strokes before the one with this fill, and under every longer
  palette with which the drawing succeeds the same calls are followed by the call with this fill. -/
  stopped : ∀ palette cause, (Recorder.record (drawing palette) none).2 = .error cause →
    ∃ color fillsBefore fillsAfter strokesBefore stroke strokesAfter,
      cause = .palette (.unregistered color) ∧
      fills = fillsBefore ++ some color :: fillsAfter ∧
      (∀ earlier, some earlier ∈ fillsBefore → palette.contains earlier = true) ∧
      palette.contains color = false ∧
      strokes = strokesBefore ++ stroke :: strokesAfter ∧
      strokesBefore.filterMap Stroke.fill? = fillsBefore ∧
      stroke.fill? = some (some color) ∧
      (Recorder.record (drawing palette) none).1.map
          (Call.paint? (boundColor? (Recorder.record (Drawing.palette palette) none).1)) =
        strokesBefore.map some ∧
      ∀ longer : Palette, palette.colors <+: longer.colors →
        (Recorder.record (drawing longer) none).2 = .ok () →
          ∃ call index callsAfter,
            (Recorder.record (drawing longer) none).1 =
              (Recorder.record (drawing palette) none).1 ++ call :: callsAfter ∧
            longer.index color = .ok index ∧ call.fill? = some (some index)

theorem Stroke.index_of_call {palette : Palette} {stroke : Stroke} {color : Color} {call : Call}
    (fillEq : stroke.fill? = some (some color)) (called : stroke.call palette = .ok call) :
    ∃ index, palette.index color = .ok index ∧ call.fill? = some (some index) := by
  rcases Stroke.resolve_of_call called with ⟨noFill, _⟩ |
    ⟨fill, argument, filled, argumentEq, resolved⟩
  · rw [fillEq] at noFill
    cases noFill
  · rw [fillEq] at filled
    cases filled
    rcases Palette.resolve_eq_ok_iff.mp resolved with ⟨absent, _⟩ | ⟨_, index, same, rfl, found⟩
    · cases absent
    · cases same
      exact ⟨index, found, argumentEq⟩

/-- Under a longer palette the calls before a stroke with a colour are the same, and the call of
this stroke is the next one. -/
theorem Palette.exists_next_call {palette longer : Palette} {before after : List Stroke}
    {stroke : Stroke} {color : Color} {calls : List Call}
    (continued : palette.colors <+: longer.colors) (called : palette.Completes before calls)
    (fillEq : stroke.fill? = some (some color))
    (succeeded : (longer.script (before ++ stroke :: after)).ending = .ok ()) :
    ∃ call index callsAfter,
      (longer.script (before ++ stroke :: after)).calls = calls ++ call :: callsAfter ∧
        longer.index color = .ok index ∧ call.fill? = some (some index) := by
  rw [script_append_of_continued continued called] at succeeded ⊢
  cases strokeCalled : stroke.call longer with
  | error cause =>
      rw [script_cons_of_error strokeCalled] at succeeded
      cases succeeded
  | ok call =>
      rcases Stroke.index_of_call fillEq strokeCalled with ⟨index, found, argumentEq⟩
      refine ⟨call, index, (longer.script after).calls, ?_, found, argumentEq⟩
      rw [script_cons_of_call strokeCalled, Script.cons]

/-- Performing the script of strokes draws the strokes. -/
theorem draws_perform (strokes : List Stroke) :
    Draws (fun palette => Drawing.perform (palette.script strokes))
      (strokes.filterMap Stroke.fill?) strokes := by
  refine ⟨?_, ?_, ?_, ?_⟩
  · intro palette
    rw [Recorder.record_perform]
    simp only [Palette.contains_iff]
    exact Palette.ending_script_eq_ok_iff
  · intro palette
    rw [Recorder.record_perform]
    intro succeeded
    exact (Palette.completes_of_ending_ok succeeded).resolved
  · intro palette
    rw [Recorder.record_perform, Recorder.boundColor?_palette]
    intro succeeded
    exact (Palette.completes_of_ending_ok succeeded).painted
  · intro palette cause
    rw [Recorder.record_perform, Recorder.boundColor?_palette]
    intro failed
    rcases Palette.script_complete_or_stops palette strokes with ⟨_, scriptEq, _⟩ |
      ⟨before, stroke, after, calls, _, rfl, scriptEq, called, refused⟩
    · rw [scriptEq] at failed
      cases failed
    · rw [scriptEq] at failed ⊢
      cases failed
      rcases Stroke.call_eq_error_iff.mp refused with ⟨color, fillEq, absent, causeEq⟩
      refine ⟨color, before.filterMap Stroke.fill?, after.filterMap Stroke.fill?, before, stroke,
        after, causeEq, ?_, ?_, ?_, rfl, rfl, fillEq, called.painted, ?_⟩
      · rw [List.filterMap_append, List.filterMap_cons_some fillEq]
      · intro earlier earlierMem
        exact Palette.contains_iff.mpr (Palette.mem_colors_of_completes called earlierMem)
      · rw [← Bool.not_eq_true, Palette.contains_iff]
        exact absent
      · intro longer continued
        rw [Recorder.record_perform]
        intro succeeded
        exact Palette.exists_next_call continued called fillEq succeeded

/-- Emission agrees with the walk over the fills and draws the right colours. -/
theorem element_and_place_draw :
    (∀ shape : Element,
      Draws (fun palette => Drawing.element palette shape) shape.fills shape.strokes) ∧
    ∀ (transform : Transform) (glyph : List Group),
      Draws (fun palette => Drawing.place palette transform glyph) (glyphFills glyph)
        (placementStrokes transform glyph) := by
  constructor
  · intro shape
    rw [Element.fills_eq_strokes]
    simp only [Drawing.element_eq_perform]
    exact draws_perform shape.strokes
  · intro transform glyph
    rw [glyphFills_eq_strokes transform]
    simp only [Drawing.place_eq_perform]
    exact draws_perform (placementStrokes transform glyph)

end TikzGlyph
