import TikzGlyph.Proofs.Drawing.Stroke
import TikzGlyph.Tikz.Writer

/-!
# Written drawings

A writer fails only when a scope is closed that is not open. The strokes of an element open and
close their scopes in matching pairs, so they leave the number of open scopes as they found it and
never close one of the scopes around them. Hence a glyph whose fills are all in the palette can be
written, and so can every palette.
-/

namespace TikzGlyph

/-- The number of open scopes after a stroke, unless it closes a scope and none is open. -/
def Stroke.depthAfter? (depth : Nat) (stroke : Stroke) : Option Nat :=
  Tikz.Writer.depthAfter? depth (stroke.withArgument none)

/-! ## Scopes of strokes -/

mutual

/-- The strokes of an element leave the scopes open that were open before. -/
theorem Element.depthAfter?_strokes (element : Element) (depth : Nat) :
    element.strokes.foldlM Stroke.depthAfter? depth = some depth := by
  cases element with
  | path data fill => rfl
  | circle centerX centerY radius fill => rfl
  | ellipse centerX centerY radiusX radiusY fill => rfl
  | group fill children =>
      change (strokesOfAll children ++ [Stroke.endScope]).foldlM Stroke.depthAfter? (depth + 1) = _
      rw [List.foldlM_append, depthAfter?_strokesOfAll children (depth + 1)]
      rfl

theorem Element.depthAfter?_strokesOfAll (elements : List Element) (depth : Nat) :
    (Element.strokesOfAll elements).foldlM Stroke.depthAfter? depth = some depth := by
  cases elements with
  | nil => rfl
  | cons first rest =>
      rw [Element.strokesOfAll, List.foldlM_append, depthAfter?_strokes first depth]
      exact depthAfter?_strokesOfAll rest depth

end

theorem depthAfter?_strokes_groups (glyph : List Group) (depth : Nat) :
    (glyph.flatMap fun group => group.element.strokes).foldlM Stroke.depthAfter? depth =
      some depth := by
  induction glyph with
  | nil => rfl
  | cons first rest ih =>
      rw [List.flatMap_cons, List.foldlM_append, Element.depthAfter?_strokes]
      exact ih

theorem depthAfter?_placementStrokes (transform : Transform) (glyph : List Group) (depth : Nat) :
    (placementStrokes transform glyph).foldlM Stroke.depthAfter? depth = some depth := by
  change (_ ++ [Stroke.endScope]).foldlM Stroke.depthAfter? (depth + 1) = _
  rw [List.foldlM_append, depthAfter?_strokes_groups]
  rfl

theorem Palette.Completes.depthAfter? {palette : Palette} {strokes : List Stroke}
    {calls : List Call} (called : palette.Completes strokes calls) (depth : Nat) :
    calls.foldlM Tikz.Writer.depthAfter? depth = strokes.foldlM Stroke.depthAfter? depth := by
  have stepsEq : calls.map (fun call depth => Tikz.Writer.depthAfter? depth call) =
      strokes.map fun stroke depth => stroke.depthAfter? depth := by
    apply called.map_eq
    intro stroke argument
    cases stroke <;> rfl
  have scanned := congrArg (List.foldlM (fun depth step => step depth) depth) stepsEq
  rw [List.foldlM_map, List.foldlM_map] at scanned
  exact scanned

/-! ## Writers -/

namespace Tikz

namespace Writer

/-- A text with the directives of calls, one per line. -/
def appendCalls (text : String) (calls : List Call) : String :=
  calls.foldl (fun text call => appendLine text (directive call)) text

theorem run_calls {calls : List Call} {depth final : Nat} (text : String)
    (balanced : calls.foldlM depthAfter? depth = some final) :
    (Drawing.calls calls).run.run (⟨text, depth⟩ : Writer) =
      (.ok (), ⟨appendCalls text calls, final⟩) := by
  induction calls generalizing text depth with
  | nil =>
      cases balanced
      rfl
  | cons first rest ih =>
      rw [List.foldlM_cons] at balanced
      rcases Option.bind_eq_some_iff.mp balanced with ⟨next, firstDepth, restBalanced⟩
      have firstWritten :
          (Drawing.call first).run.run (⟨text, depth⟩ : Writer) =
            (.ok (), ⟨appendLine text (directive first), next⟩) := by
        change write first ⟨text, depth⟩ = _
        rw [write, firstDepth]
      rw [Drawing.calls, Drawing.run_bind, firstWritten]
      exact ih (appendLine text (directive first)) restBalanced

/-- A script that ends well and closes the scopes it opens is written as its directives. -/
theorem run_perform {calls : List Call} (balanced : calls.foldlM depthAfter? 0 = some 0) :
    run (Drawing.perform ⟨calls, .ok ()⟩) = .ok (appendCalls "" calls) := by
  have runEq : (Drawing.perform ⟨calls, .ok ()⟩).run.run empty =
      (.ok (), ⟨appendCalls "" calls, 0⟩) := by
    rw [Drawing.perform, Drawing.run_bind, empty, run_calls "" balanced]
    rfl
  simp only [run, runEq]
  rfl

/-- Balanced strokes are written if the palette has all their colours. -/
theorem exists_run_script {palette : Palette} {strokes : List Stroke}
    (registered : ∀ color, some color ∈ strokes.filterMap Stroke.fill? → color ∈ palette.colors)
    (balanced : strokes.foldlM Stroke.depthAfter? 0 = some 0) :
    ∃ text, run (Drawing.perform (palette.script strokes)) = .ok text := by
  have called := Palette.completes_of_ending_ok (Palette.ending_script_eq_ok_iff.mpr registered)
  rw [Palette.script_of_completes called]
  refine ⟨_, run_perform ?_⟩
  rw [called.depthAfter?, balanced]

end Writer

theorem exists_place {palette : Palette} {glyph : List Group} (transform : Transform)
    (registered : ∀ color, some color ∈ glyphFills glyph → color ∈ palette.colors) :
    ∃ text, place transform glyph palette = .ok text := by
  rw [place, Drawing.place_eq_perform]
  rw [glyphFills_eq_strokes transform] at registered
  exact Writer.exists_run_script registered (depthAfter?_placementStrokes transform glyph 0)

/-- A glyph looks the same under every palette that continues one with all its fills. -/
theorem place_eq_of_continued {palette longer : Palette} {glyph : List Group}
    (continued : palette.colors <+: longer.colors)
    (registered : ∀ color, some color ∈ glyphFills glyph → color ∈ palette.colors)
    (transform : Transform) :
    place transform glyph longer = place transform glyph palette := by
  rw [glyphFills_eq_strokes transform] at registered
  have called := Palette.completes_of_ending_ok (Palette.ending_script_eq_ok_iff.mpr registered)
  have longerScript := Palette.script_append_of_continued continued called []
  rw [List.append_nil] at longerScript
  simp only [place, Drawing.place_eq_perform]
  rw [longerScript, Palette.script_of_completes called]
  simp [Palette.script]

theorem Writer.depthAfter?_definitions (entries : List (Nat × Color)) (depth : Nat) :
    (entries.map fun entry => Call.define entry.1 entry.2).foldlM depthAfter? depth =
      some depth := by
  induction entries with
  | nil => rfl
  | cons first rest ih => exact ih

/-- The text of a palette has the directives that define its colours. -/
theorem paletteText_eq (palette : Palette) :
    paletteText palette = .ok (Writer.appendCalls ""
      (palette.entries.map fun entry => .define entry.1 entry.2)) := by
  rw [paletteText, Drawing.palette_eq_perform]
  exact Writer.run_perform (Writer.depthAfter?_definitions palette.entries 0)

theorem exists_paletteText (palette : Palette) : ∃ text, paletteText palette = .ok text :=
  ⟨_, paletteText_eq palette⟩

theorem append_colorName (start : String) (index : Nat) :
    start ++ colorName index = start ++ "c" ++ index.repr :=
  String.append_assoc.symm

/-- A shading names the colours of its two indices, the bottom one first. -/
theorem shading_eq (bottom top : Nat) :
    shading bottom top =
      "\\shade[shading=axis, bottom color=c" ++ bottom.repr ++ ", top color=c" ++ top.repr ++
        ", shading angle=45] (current page.south west) rectangle (current page.north east);" := by
  have bottomStart : "\\shade[shading=axis, bottom color=c" =
      "\\shade[shading=axis, bottom color=" ++ "c" := by decide
  have topStart : ", top color=c" = ", top color=" ++ "c" := by decide
  rw [bottomStart, ← append_colorName, topStart, ← String.append_assoc, ← append_colorName]
  rfl

end Tikz

end TikzGlyph
