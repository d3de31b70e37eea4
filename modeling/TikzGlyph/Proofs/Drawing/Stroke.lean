import Mathlib.Data.List.Forall2
import TikzGlyph.Proofs.Palette.Lookup

/-!
# Strokes

A drawing decides about calls and about colours at once. This file takes the two apart. The strokes
of an element are its calls with the colours themselves in place of indices; they are a flat list
that no palette enters into. A palette turns a list of strokes into a script: the calls up to the
first stroke whose colour it lacks, and how the drawing ends there. The main statements say that
drawing an element, and placing a glyph, performs exactly the script of its strokes, on every
canvas.
-/

namespace TikzGlyph

/-- A call to a canvas with the colour of its fill in place of an index. -/
inductive Stroke
  | beginGroup (fill : Option Color)
  | beginPlacement (transform : Transform)
  | endScope
  | circle (centerX centerY radius : Binary64) (fill : Option Color)
  | ellipse (centerX centerY radiusX radiusY : Binary64) (fill : Option Color)
  | path (data : String) (fill : Option Color)
deriving DecidableEq, Repr

/-- The fill argument of a call, if calls of its kind have one. -/
def Call.fill? : Call → Option (Option Nat)
  | .define _ _ => none
  | .beginGroup fill => some fill
  | .beginPlacement _ => none
  | .endScope => none
  | .circle _ _ _ fill => some fill
  | .ellipse _ _ _ _ fill => some fill
  | .path _ fill => some fill

namespace Stroke

/-- The fill of a stroke, if strokes of its kind have one. -/
def fill? : Stroke → Option (Option Color)
  | .beginGroup fill => some fill
  | .beginPlacement _ => none
  | .endScope => none
  | .circle _ _ _ fill => some fill
  | .ellipse _ _ _ _ fill => some fill
  | .path _ fill => some fill

/-- The call of a stroke with a fill argument; a stroke without a fill does not use it. -/
def withArgument (argument : Option Nat) : Stroke → Call
  | .beginGroup _ => .beginGroup argument
  | .beginPlacement transform => .beginPlacement transform
  | .endScope => .endScope
  | .circle centerX centerY radius _ => .circle centerX centerY radius argument
  | .ellipse centerX centerY radiusX radiusY _ =>
      .ellipse centerX centerY radiusX radiusY argument
  | .path data _ => .path data argument

/-- The call of a stroke under a palette. -/
def call (palette : Palette) (stroke : Stroke) : Except RenderError Call :=
  match stroke.fill? with
  | none => .ok (stroke.withArgument none)
  | some fill => (palette.resolve fill).map stroke.withArgument

end Stroke

namespace Element

mutual

/-- The strokes of an element, those of a group enclosed in a scope. -/
def strokes : Element → List Stroke
  | .path data fill => [.path data fill]
  | .circle centerX centerY radius fill => [.circle centerX centerY radius fill]
  | .ellipse centerX centerY radiusX radiusY fill =>
      [.ellipse centerX centerY radiusX radiusY fill]
  | .group fill children => .beginGroup fill :: (strokesOfAll children ++ [.endScope])

def strokesOfAll : List Element → List Stroke
  | [] => []
  | element :: rest => element.strokes ++ strokesOfAll rest

end

end Element

/-- The strokes of a placed glyph. -/
def placementStrokes (transform : Transform) (glyph : List Group) : List Stroke :=
  .beginPlacement transform :: (glyph.flatMap (fun group => group.element.strokes) ++ [.endScope])

/-- What a drawing calls for on a canvas that never fails, and how it ends after these calls. -/
structure Script where
  calls : List Call
  ending : Except RenderError Unit

namespace Script

def cons (call : Call) (script : Script) : Script :=
  { script with calls := call :: script.calls }

end Script

/-- The script of strokes: it ends at the first stroke whose fill the palette lacks. -/
def Palette.script (palette : Palette) : List Stroke → Script
  | [] => ⟨[], .ok ()⟩
  | stroke :: rest =>
      match stroke.call palette with
      | .error cause => ⟨[], .error cause⟩
      | .ok call => (palette.script rest).cons call

/-! ## Fills of strokes -/

mutual

/-- Walking over the fills of an element meets the fills of its strokes. -/
theorem Element.fills_eq_strokes (element : Element) :
    element.fills = element.strokes.filterMap Stroke.fill? := by
  cases element with
  | path data fill => rfl
  | circle centerX centerY radius fill => rfl
  | ellipse centerX centerY radiusX radiusY fill => rfl
  | group fill children =>
      rw [Element.fills, Element.strokes, fillsOfAll_eq_strokes children]
      simp [Stroke.fill?]

theorem Element.fillsOfAll_eq_strokes (elements : List Element) :
    Element.fillsOfAll elements = (Element.strokesOfAll elements).filterMap Stroke.fill? := by
  cases elements with
  | nil => rfl
  | cons first rest =>
      rw [Element.fillsOfAll, Element.strokesOfAll, List.filterMap_append,
        fills_eq_strokes first, fillsOfAll_eq_strokes rest]

end

/-- Walking over the fills of a glyph meets the fills of its strokes. -/
theorem glyphFills_eq_strokes (transform : Transform) (glyph : List Group) :
    glyphFills glyph = (placementStrokes transform glyph).filterMap Stroke.fill? := by
  have groupsEq : glyphFills glyph =
      (glyph.flatMap fun group => group.element.strokes).filterMap Stroke.fill? := by
    rw [List.filterMap_flatMap]
    change (glyph.flatMap fun group => group.element.fills) = _
    simp only [Element.fills_eq_strokes]
  rw [placementStrokes, List.filterMap_cons_none rfl, List.filterMap_append, ← groupsEq]
  simp [Stroke.fill?]

/-! ## Calls of strokes -/

namespace Stroke

theorem withArgument_fill? (stroke : Stroke) (argument : Option Nat) :
    (stroke.withArgument argument).fill? = stroke.fill?.map fun _ => argument := by
  cases stroke <;> rfl

/-- A stroke has no call exactly if its fill is a colour that the palette lacks. -/
theorem call_eq_error_iff {palette : Palette} {stroke : Stroke} {cause : RenderError} :
    stroke.call palette = .error cause ↔
      ∃ color, stroke.fill? = some (some color) ∧ color ∉ palette.colors ∧
        cause = .palette (.unregistered color) := by
  simp only [call]
  cases stroke.fill? with
  | none => simp
  | some fill =>
      simp only [map_eq_error_iff, Palette.resolve_eq_error_iff, Option.some.injEq]

/-- The call of a stroke carries its resolved fill, if strokes of its kind have one. -/
theorem call_eq_ok_iff {palette : Palette} {stroke : Stroke} {call : Call} :
    stroke.call palette = .ok call ↔
      (stroke.fill? = none ∧ call = stroke.withArgument none) ∨
        ∃ fill argument, stroke.fill? = some fill ∧ palette.resolve fill = .ok argument ∧
          call = stroke.withArgument argument := by
  simp only [Stroke.call]
  cases stroke.fill? with
  | none => simp [eq_comm]
  | some fill =>
      simp only [map_eq_ok_iff, Option.some.injEq]
      constructor
      · rintro ⟨argument, resolved, rfl⟩
        exact Or.inr ⟨fill, argument, rfl, resolved, rfl⟩
      · rintro (⟨noFill, _⟩ | ⟨_, argument, rfl, resolved, rfl⟩)
        · cases noFill
        · exact ⟨argument, resolved, rfl⟩

theorem call_of_continued {palette longer : Palette} (continued : palette.colors <+: longer.colors)
    {stroke : Stroke} {call : Call} (called : stroke.call palette = .ok call) :
    stroke.call longer = .ok call := by
  apply call_eq_ok_iff.mpr
  rcases call_eq_ok_iff.mp called with ⟨noFill, rfl⟩ | ⟨fill, argument, filled, resolved, rfl⟩
  · exact Or.inl ⟨noFill, rfl⟩
  · exact Or.inr ⟨fill, argument, filled, Palette.resolve_of_continued continued resolved, rfl⟩

end Stroke

/-! ## Scripts under a palette -/

/-- Under a palette, every one of the strokes has its call. -/
abbrev Palette.Completes (palette : Palette) (strokes : List Stroke) (calls : List Call) : Prop :=
  List.Forall₂ (fun stroke call => stroke.call palette = .ok call) strokes calls

/-- The script that defines the colours of a palette. -/
def Palette.definitionScript (palette : Palette) : Script :=
  ⟨palette.entries.map fun entry => .define entry.1 entry.2, .ok ()⟩

namespace Palette

theorem script_cons_of_call {palette : Palette} {stroke : Stroke} {call : Call}
    (called : stroke.call palette = .ok call) (rest : List Stroke) :
    palette.script (stroke :: rest) = (palette.script rest).cons call := by
  rw [script, called]

theorem script_cons_of_error {palette : Palette} {stroke : Stroke} {cause : RenderError}
    (refused : stroke.call palette = .error cause) (rest : List Stroke) :
    palette.script (stroke :: rest) = ⟨[], .error cause⟩ := by
  rw [script, refused]

theorem script_of_completes {palette : Palette} {strokes : List Stroke} {calls : List Call}
    (called : palette.Completes strokes calls) :
    palette.script strokes = ⟨calls, .ok ()⟩ := by
  induction called with
  | nil => rfl
  | cons firstCalled restCalled ih =>
      rw [script_cons_of_call firstCalled, ih]
      rfl

/-- What does not depend on fill arguments is the same for strokes and for their calls. -/
theorem Completes.map_eq {palette : Palette} {strokes : List Stroke} {calls : List Call}
    (called : palette.Completes strokes calls) {value : Type} {ofCall : Call → value}
    {ofStroke : Stroke → value}
    (agree : ∀ stroke argument, ofCall (stroke.withArgument argument) = ofStroke stroke) :
    calls.map ofCall = strokes.map ofStroke := by
  induction called with
  | nil => rfl
  | @cons stroke call rest calls firstCalled restCalled ih =>
      have same : ofCall call = ofStroke stroke := by
        rcases Stroke.call_eq_ok_iff.mp firstCalled with ⟨_, rfl⟩ | ⟨fill, argument, _, _, rfl⟩
        · apply agree
        · apply agree
      rw [List.map_cons, List.map_cons, same, ih]

/-- A script holds the calls of all its strokes, or those before a first stroke without a call. -/
theorem script_complete_or_stops (palette : Palette) (strokes : List Stroke) :
    (∃ calls, palette.script strokes = ⟨calls, .ok ()⟩ ∧
      palette.Completes strokes calls) ∨
    ∃ before stroke after calls cause, strokes = before ++ stroke :: after ∧
      palette.script strokes = ⟨calls, .error cause⟩ ∧
      palette.Completes before calls ∧
      stroke.call palette = .error cause := by
  induction strokes with
  | nil => exact Or.inl ⟨[], rfl, .nil⟩
  | cons first rest ih =>
      cases firstCalled : first.call palette with
      | error cause =>
          right
          exact ⟨[], first, rest, [], cause, rfl, script_cons_of_error firstCalled rest, .nil,
            firstCalled⟩
      | ok call =>
          rw [script_cons_of_call firstCalled]
          rcases ih with ⟨calls, scriptEq, called⟩ |
            ⟨before, stroke, after, calls, cause, restEq, scriptEq, called, refused⟩
          · left
            exact ⟨call :: calls, by rw [scriptEq, Script.cons], .cons firstCalled called⟩
          · right
            refine ⟨first :: before, stroke, after, call :: calls, cause, ?_, ?_, ?_, refused⟩
            · rw [restEq, List.cons_append]
            · rw [scriptEq, Script.cons]
            · exact .cons firstCalled called

theorem mem_colors_of_completes {palette : Palette} {strokes : List Stroke} {calls : List Call}
    (called : palette.Completes strokes calls)
    {color : Color} (colorMem : some color ∈ strokes.filterMap Stroke.fill?) :
    color ∈ palette.colors := by
  rcases List.mem_filterMap.mp colorMem with ⟨carrier, carrierMem, fillEq⟩
  induction called with
  | nil => cases carrierMem
  | @cons first call rest calls firstCalled restCalled ih =>
      rcases List.mem_cons.mp carrierMem with rfl | carrierMem
      · apply Classical.byContradiction
        intro absent
        rw [Stroke.call_eq_error_iff.mpr ⟨color, fillEq, absent, rfl⟩] at firstCalled
        cases firstCalled
      · exact ih (List.mem_filterMap.mpr ⟨carrier, carrierMem, fillEq⟩) carrierMem

/-- A script ends well exactly if the palette has every colour of its strokes. -/
theorem ending_script_eq_ok_iff {palette : Palette} {strokes : List Stroke} :
    (palette.script strokes).ending = .ok () ↔
      ∀ color, some color ∈ strokes.filterMap Stroke.fill? → color ∈ palette.colors := by
  rcases script_complete_or_stops palette strokes with ⟨calls, scriptEq, called⟩ |
    ⟨before, stroke, after, calls, cause, rfl, scriptEq, called, refused⟩
  · rw [scriptEq]
    apply iff_of_true rfl
    intro color colorMem
    exact mem_colors_of_completes called colorMem
  · rcases Stroke.call_eq_error_iff.mp refused with ⟨color, fillEq, absent, _⟩
    rw [scriptEq]
    apply iff_of_false
    · intro same
      cases same
    · intro present
      apply absent
      apply present
      exact List.mem_filterMap.mpr ⟨stroke, by simp, fillEq⟩

/-- Nothing but a colour that the palette lacks ends a script early. -/
theorem ending_script_cases (palette : Palette) (strokes : List Stroke) :
    (palette.script strokes).ending = .ok () ∨
      ∃ color, (palette.script strokes).ending = .error (.palette (.unregistered color)) := by
  rcases script_complete_or_stops palette strokes with ⟨calls, scriptEq, _⟩ |
    ⟨before, stroke, after, calls, cause, _, scriptEq, _, refused⟩
  · left
    rw [scriptEq]
  · right
    rcases Stroke.call_eq_error_iff.mp refused with ⟨color, _, _, rfl⟩
    exact ⟨color, by rw [scriptEq]⟩

theorem completes_of_ending_ok {palette : Palette} {strokes : List Stroke}
    (ended : (palette.script strokes).ending = .ok ()) :
    palette.Completes strokes (palette.script strokes).calls := by
  rcases script_complete_or_stops palette strokes with ⟨calls, scriptEq, called⟩ |
    ⟨before, stroke, after, calls, cause, _, scriptEq, _, _⟩
  · rw [scriptEq]
    exact called
  · rw [scriptEq] at ended
    cases ended

/-- A palette that continues another one completes every script that the other completes. -/
theorem script_append_of_continued {palette longer : Palette}
    (continued : palette.colors <+: longer.colors) {before : List Stroke} {calls : List Call}
    (called : palette.Completes before calls)
    (after : List Stroke) :
    longer.script (before ++ after) =
      ⟨calls ++ (longer.script after).calls, (longer.script after).ending⟩ := by
  induction called with
  | nil => rfl
  | cons firstCalled restCalled ih =>
      have longerCalled := Stroke.call_of_continued continued firstCalled
      rw [List.cons_append, script_cons_of_call longerCalled, ih]
      rfl

end Palette

/-! ## Drawings as scripts -/

namespace Drawing

variable {state : Type}

/-- A step that fails ends the drawing, and the next step starts from the canvas it leaves. -/
theorem run_bind {first second : Type} (drawing : Drawing state first)
    (next : first → Drawing state second) (canvas : state) :
    (drawing >>= next).run.run canvas =
      match drawing.run.run canvas with
      | (.ok value, after) => (next value).run.run after
      | (.error cause, after) => (.error cause, after) := by
  rw [ExceptT.run_bind, StateT.run_bind]
  rcases drawing.run.run canvas with ⟨_ | _, after⟩ <;> rfl

theorem lift_map_bind {first second : Type} (result : Except RenderError first)
    (convert : first → second) (next : second → Drawing state Unit) :
    (lift (result.map convert) >>= next) =
      (lift result >>= fun value => next (convert value)) := by
  cases result with
  | error cause => rfl
  | ok value => rfl

/-- The call of a stroke that has a fill waits for the fill alone. -/
theorem lift_call_bind (palette : Palette) {stroke : Stroke} {fill : Option Color}
    (filled : stroke.fill? = some fill) (next : Call → Drawing state Unit) :
    (lift (stroke.call palette) >>= next) =
      (lift (palette.resolve fill) >>= fun argument => next (stroke.withArgument argument)) := by
  rw [Stroke.call, filled]
  exact lift_map_bind (palette.resolve fill) stroke.withArgument next

variable [Canvas state]

def calls : List Call → Drawing state Unit
  | [] => pure ()
  | first :: rest => do
      call first
      calls rest

/-- The calls of a script and then its ending. -/
def perform (script : Script) : Drawing state Unit := do
  calls script.calls
  lift script.ending

theorem perform_cons (first : Call) (script : Script) :
    (perform (script.cons first) : Drawing state Unit) = (do call first; perform script) := by
  simp only [perform, Script.cons, calls, bind_assoc]

theorem perform_script_cons (palette : Palette) (stroke : Stroke) (rest : List Stroke) :
    (perform (palette.script (stroke :: rest)) : Drawing state Unit) =
      (do
        call (← lift (stroke.call palette))
        perform (palette.script rest)) := by
  rw [Palette.script]
  cases stroke.call palette with
  | error cause => rfl
  | ok first => exact perform_cons first (palette.script rest)

theorem perform_script_append (palette : Palette) (left right : List Stroke) :
    (perform (palette.script (left ++ right)) : Drawing state Unit) =
      (do
        perform (palette.script left)
        perform (palette.script right)) := by
  induction left with
  | nil => rfl
  | cons first rest ih =>
      rw [List.cons_append, perform_script_cons, perform_script_cons, ih]
      simp only [bind_assoc]

theorem perform_script_singleton (palette : Palette) (stroke : Stroke) :
    (perform (palette.script [stroke]) : Drawing state Unit) =
      (do call (← lift (stroke.call palette))) := by
  have nothingLeft : (perform (palette.script []) : Drawing state Unit) = pure () := rfl
  rw [perform_script_cons, nothingLeft]
  simp only [bind_pure_unit]

mutual

theorem element_eq_perform (palette : Palette) (shape : Element) :
    (element palette shape : Drawing state Unit) = perform (palette.script shape.strokes) := by
  cases shape with
  | path data fill =>
      rw [Element.strokes, perform_script_singleton, lift_call_bind palette rfl]
      rfl
  | circle centerX centerY radius fill =>
      rw [Element.strokes, perform_script_singleton, lift_call_bind palette rfl]
      rfl
  | ellipse centerX centerY radiusX radiusY fill =>
      rw [Element.strokes, perform_script_singleton, lift_call_bind palette rfl]
      rfl
  | group fill children =>
      rw [Element.strokes, perform_script_cons, lift_call_bind palette rfl,
        perform_script_append, perform_script_singleton, element,
        elements_eq_perform palette children]
      rfl

theorem elements_eq_perform (palette : Palette) (shapes : List Element) :
    (elements palette shapes : Drawing state Unit) =
      perform (palette.script (Element.strokesOfAll shapes)) := by
  cases shapes with
  | nil => rfl
  | cons first rest =>
      rw [elements, Element.strokesOfAll, perform_script_append, element_eq_perform palette first,
        elements_eq_perform palette rest]

end

theorem groups_eq_perform (palette : Palette) (glyph : List Group) :
    (groups palette glyph : Drawing state Unit) =
      perform (palette.script (glyph.flatMap fun group => group.element.strokes)) := by
  induction glyph with
  | nil => rfl
  | cons first rest ih =>
      rw [groups, List.flatMap_cons, perform_script_append, element_eq_perform, ih]

theorem place_eq_perform (palette : Palette) (transform : Transform) (glyph : List Group) :
    (place palette transform glyph : Drawing state Unit) =
      perform (palette.script (placementStrokes transform glyph)) := by
  rw [placementStrokes, perform_script_cons, perform_script_append, perform_script_singleton, place,
    groups_eq_perform]
  rfl

theorem palette_eq_perform (palette : Palette) :
    (Drawing.palette palette : Drawing state Unit) = perform palette.definitionScript := by
  have definitionsEq : ∀ entries : List (Nat × Color),
      (definitions entries : Drawing state Unit) =
        perform ⟨entries.map fun entry => .define entry.1 entry.2, .ok ()⟩ := by
    intro entries
    induction entries with
    | nil => rfl
    | cons first rest ih =>
        rw [definitions, ih]
        exact (perform_cons (.define first.1 first.2) ⟨_, .ok ()⟩).symm
  exact definitionsEq palette.entries

end Drawing

end TikzGlyph
