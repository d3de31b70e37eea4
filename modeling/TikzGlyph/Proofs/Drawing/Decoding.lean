import Mathlib.Combinatorics.Enumerative.DyckWord
import TikzGlyph.Proofs.Drawing.Recording

/-!
# Decoded drawings

The calls of a drawing are flat, but nothing of the drawing is lost in them. A reader goes through
the strokes behind the calls and keeps the elements that are complete and the groups that are open.
Each stroke that it reads is kept in what it holds, so an element is read back exactly from its own
strokes. Indices are turned into colours with the definitions that the palette itself makes; since
these bind every index once and no colour twice, the calls are recovered from the strokes as well.
Hence the decoders of this file accept the calls of complete drawings, give back what was drawn, and
accept no other calls.
-/

namespace TikzGlyph

/-- What a reader of strokes holds: the elements that are complete in the innermost open group, and
for every open group, the innermost one first, its fill and the elements before it. -/
structure Unfinished where
  elements : List Element
  enclosing : List (Option Color × List Element)

namespace Unfinished

def start : Unfinished := ⟨[], []⟩

def add (unfinished : Unfinished) (element : Element) : Unfinished :=
  { unfinished with elements := unfinished.elements ++ [element] }

/-- Reads one stroke. A scope that ends must be one that is open, and a glyph is placed inside no
element. -/
def step (unfinished : Unfinished) : Stroke → Option Unfinished
  | .path data fill => some (unfinished.add (.path data fill))
  | .circle centerX centerY radius fill =>
      some (unfinished.add (.circle centerX centerY radius fill))
  | .ellipse centerX centerY radiusX radiusY fill =>
      some (unfinished.add (.ellipse centerX centerY radiusX radiusY fill))
  | .beginGroup fill => some ⟨[], (fill, unfinished.elements) :: unfinished.enclosing⟩
  | .endScope =>
      match unfinished.enclosing with
      | [] => none
      | (fill, before) :: outer => some ⟨before ++ [.group fill unfinished.elements], outer⟩
  | .beginPlacement _ => none

/-- The strokes up to the innermost of some open groups. -/
def enclosingStrokes : List (Option Color × List Element) → List Stroke
  | [] => []
  | (fill, before) :: outer =>
      enclosingStrokes outer ++ (Element.strokesOfAll before ++ [.beginGroup fill])

/-- The strokes that have been read. -/
def strokes (unfinished : Unfinished) : List Stroke :=
  enclosingStrokes unfinished.enclosing ++ Element.strokesOfAll unfinished.elements

end Unfinished

def Element.allOfStrokes? (strokes : List Stroke) : Option (List Element) :=
  match strokes.foldlM Unfinished.step .start with
  | some ⟨elements, []⟩ => some elements
  | _ => none

def Element.ofStrokes? (strokes : List Stroke) : Option Element :=
  match Element.allOfStrokes? strokes with
  | some [element] => some element
  | _ => none

/-- The group that an element is. -/
def Element.group? : Element → Option Group
  | .group fill children => some ⟨fill, children⟩
  | _ => none

/-- The placed glyph that has some strokes. -/
def placementOfStrokes? : List Stroke → Option (Transform × List Group)
  | .beginPlacement transform :: rest =>
      if rest.getLast? = some .endScope then
        ((Element.allOfStrokes? rest.dropLast).bind (List.mapM Element.group?)).map (transform, ·)
      else none
  | _ => none

/-- The element that some calls draw, by the colours behind their indices. -/
def Element.ofCalls? (colorOf : Nat → Option Color) (calls : List Call) : Option Element :=
  (calls.mapM (Call.paint? colorOf)).bind Element.ofStrokes?

/-- The glyph that some calls place and its transform, by the colours behind their indices. -/
def placementOfCalls? (colorOf : Nat → Option Color) (calls : List Call) :
    Option (Transform × List Group) :=
  (calls.mapM (Call.paint? colorOf)).bind placementOfStrokes?

/-! ## Reading strokes -/

theorem mapM_eq_some_iff {first second : Type} {convert : first → Option second}
    {values : List first} {images : List second} :
    values.mapM convert = some images ↔
      List.Forall₂ (fun value image => convert value = some image) values images := by
  induction values generalizing images with
  | nil => simp [eq_comm]
  | cons value rest ih =>
      simp only [List.mapM_cons, List.forall₂_cons_left_iff, ← ih, Option.bind_eq_bind,
        Option.bind_eq_some_iff, Option.pure_def, Option.some.injEq]
      constructor
      · rintro ⟨image, converted, images, restConverted, rfl⟩
        exact ⟨image, images, converted, restConverted, rfl⟩
      · rintro ⟨image, images, converted, restConverted, rfl⟩
        exact ⟨image, converted, images, restConverted, rfl⟩

namespace Element

@[simp]
theorem strokesOfAll_append (left right : List Element) :
    strokesOfAll (left ++ right) = strokesOfAll left ++ strokesOfAll right := by
  induction left with
  | nil => rfl
  | cons first rest ih => rw [List.cons_append, strokesOfAll, strokesOfAll, ih, List.append_assoc]

@[simp]
theorem strokesOfAll_singleton (element : Element) : strokesOfAll [element] = element.strokes := by
  rw [strokesOfAll, strokesOfAll, List.append_nil]

theorem strokesOfAll_map_element (glyph : List Group) :
    strokesOfAll (glyph.map Group.element) = glyph.flatMap fun group => group.element.strokes := by
  induction glyph with
  | nil => rfl
  | cons first rest ih => rw [List.map_cons, strokesOfAll, ih, List.flatMap_cons]

theorem mapM_group?_eq_some_iff {elements : List Element} {glyph : List Group} :
    elements.mapM group? = some glyph ↔ elements = glyph.map Group.element := by
  have group?EqSomeIff : ∀ (element : Element) (group : Group),
      element.group? = some group ↔ element = group.element := by
    rintro (_ | _ | _ | _) ⟨fill, children⟩ <;> simp [group?, Group.element]
  rw [mapM_eq_some_iff]
  simp only [group?EqSomeIff]
  rw [← List.forall₂_map_right_iff, List.forall₂_eq_eq_eq]

end Element

namespace Unfinished

theorem strokes_add (unfinished : Unfinished) (element : Element) :
    (unfinished.add element).strokes = unfinished.strokes ++ element.strokes := by
  simp only [strokes, add, Element.strokesOfAll_append, Element.strokesOfAll_singleton,
    List.append_assoc]

/-- A stroke that is read is added to the strokes that have been read. -/
theorem strokes_of_step {unfinished next : Unfinished} {stroke : Stroke}
    (stepped : unfinished.step stroke = some next) :
    next.strokes = unfinished.strokes ++ [stroke] := by
  cases stroke with
  | path data fill =>
      cases stepped
      exact strokes_add unfinished _
  | circle centerX centerY radius fill =>
      cases stepped
      exact strokes_add unfinished _
  | ellipse centerX centerY radiusX radiusY fill =>
      cases stepped
      exact strokes_add unfinished _
  | beginGroup fill =>
      cases stepped
      simp [strokes, enclosingStrokes, Element.strokesOfAll]
  | endScope =>
      rcases unfinished with ⟨elements, _ | ⟨⟨fill, before⟩, outer⟩⟩
      · cases stepped
      · cases stepped
        simp [strokes, enclosingStrokes, Element.strokes]
  | beginPlacement transform => cases stepped

theorem strokes_of_foldlM {unfinished final : Unfinished} {read : List Stroke}
    (stepped : read.foldlM step unfinished = some final) :
    final.strokes = unfinished.strokes ++ read := by
  induction read generalizing unfinished with
  | nil =>
      cases stepped
      rw [List.append_nil]
  | cons first rest ih =>
      rw [List.foldlM_cons] at stepped
      rcases Option.bind_eq_some_iff.mp stepped with ⟨next, firstRead, restRead⟩
      rw [ih restRead, strokes_of_step firstRead, List.append_assoc, List.singleton_append]

mutual

/-- The strokes of an element are read as this element, whatever is held before. -/
theorem foldlM_strokes (element : Element) (unfinished : Unfinished) :
    element.strokes.foldlM step unfinished = some (unfinished.add element) := by
  cases element with
  | path data fill => rfl
  | circle centerX centerY radius fill => rfl
  | ellipse centerX centerY radiusX radiusY fill => rfl
  | group fill children =>
      have inside := foldlM_strokesOfAll children
        ⟨[], (fill, unfinished.elements) :: unfinished.enclosing⟩
      rw [Element.strokes, List.foldlM_cons]
      change List.foldlM step _ (_ ++ [Stroke.endScope]) = _
      rw [List.foldlM_append, inside]
      rfl

theorem foldlM_strokesOfAll (elements : List Element) (unfinished : Unfinished) :
    (Element.strokesOfAll elements).foldlM step unfinished =
      some { unfinished with elements := unfinished.elements ++ elements } := by
  cases elements with
  | nil =>
      rw [List.append_nil]
      rfl
  | cons first rest =>
      rw [Element.strokesOfAll, List.foldlM_append, foldlM_strokes first unfinished]
      change List.foldlM step (unfinished.add first) (Element.strokesOfAll rest) = _
      rw [foldlM_strokesOfAll rest, add, List.append_assoc, List.singleton_append]

end

end Unfinished

theorem Element.allOfStrokes?_eq_some_iff {strokes : List Stroke} {elements : List Element} :
    Element.allOfStrokes? strokes = some elements ↔ strokes = Element.strokesOfAll elements := by
  constructor
  · intro read
    unfold Element.allOfStrokes? at read
    split at read
    · rename_i complete stepped
      cases read
      exact (Unfinished.strokes_of_foldlM stepped).symm
    · cases read
  · rintro rfl
    rw [Element.allOfStrokes?, Unfinished.foldlM_strokesOfAll]
    rfl

theorem Element.ofStrokes?_eq_some_iff {strokes : List Stroke} {element : Element} :
    Element.ofStrokes? strokes = some element ↔ strokes = element.strokes := by
  rw [← Element.strokesOfAll_singleton, ← Element.allOfStrokes?_eq_some_iff]
  unfold Element.ofStrokes?
  split
  · rename_i only read
    simp [read]
  · rename_i notOne
    exact iff_of_false (by simp) (notOne element)

theorem placementOfStrokes?_eq_some_iff {strokes : List Stroke} {transform : Transform}
    {glyph : List Group} :
    placementOfStrokes? strokes = some (transform, glyph) ↔
      strokes = placementStrokes transform glyph := by
  have groupsIff : ∀ inside : List Stroke,
      (Element.allOfStrokes? inside).bind (List.mapM Element.group?) = some glyph ↔
        inside = glyph.flatMap fun group => group.element.strokes := by
    intro inside
    rw [← Element.strokesOfAll_map_element, Option.bind_eq_some_iff]
    simp only [Element.allOfStrokes?_eq_some_iff, Element.mapM_group?_eq_some_iff,
      exists_eq_right]
  constructor
  · intro read
    unfold placementOfStrokes? at read
    split at read
    · rename_i placed rest
      rcases Option.ite_none_right_eq_some.mp read with ⟨ends, read⟩
      rcases List.getLast?_eq_some_iff.mp ends with ⟨inside, rfl⟩
      rw [List.dropLast_concat, Option.map_eq_some_iff] at read
      rcases read with ⟨groups, insideRead, same⟩
      cases same
      rw [(groupsIff inside).mp insideRead, placementStrokes]
    · cases read
  · rintro rfl
    rw [placementStrokes, placementOfStrokes?, List.getLast?_concat, List.dropLast_concat,
      if_pos rfl, (groupsIff _).mpr rfl]
    rfl

/-! ## Calls and strokes -/

theorem Palette.resolve_of_paintArgument? {palette : Palette} {argument : Option Nat}
    {fill : Option Color}
    (painted : paintArgument? (fun index => palette.colors[index]?) argument = some fill) :
    palette.resolve fill = .ok argument := by
  cases argument with
  | none =>
      cases painted
      rfl
  | some index =>
      rcases Option.map_eq_some_iff.mp painted with ⟨color, stands, rfl⟩
      exact resolve_eq_ok_iff.mpr
        (Or.inr ⟨color, index, rfl, rfl, index_eq_ok_iff.mpr stands⟩)

theorem Stroke.call_of_paintArgument? {palette : Palette} {stroke : Stroke} {fill : Option Color}
    {argument : Option Nat} (filled : stroke.fill? = some fill)
    (painted : paintArgument? (fun index => palette.colors[index]?) argument = some fill) :
    stroke.call palette = .ok (stroke.withArgument argument) := by
  have resolved := Palette.resolve_of_paintArgument? painted
  exact call_eq_ok_iff.mpr (Or.inr ⟨fill, argument, filled, resolved, rfl⟩)

/-- Under a palette, a call and the stroke behind it determine each other. -/
theorem Stroke.paint_eq_some_iff {palette : Palette} {stroke : Stroke} {call : Call} :
    call.paint? (fun index => palette.colors[index]?) = some stroke ↔
      stroke.call palette = .ok call := by
  constructor
  · intro painted
    cases call with
    | define index color => cases painted
    | beginPlacement transform =>
        cases painted
        rfl
    | endScope =>
        cases painted
        rfl
    | beginGroup argument =>
        rcases Option.map_eq_some_iff.mp painted with ⟨fill, fillPainted, rfl⟩
        exact call_of_paintArgument? rfl fillPainted
    | circle centerX centerY radius argument =>
        rcases Option.map_eq_some_iff.mp painted with ⟨fill, fillPainted, rfl⟩
        exact call_of_paintArgument? rfl fillPainted
    | ellipse centerX centerY radiusX radiusY argument =>
        rcases Option.map_eq_some_iff.mp painted with ⟨fill, fillPainted, rfl⟩
        exact call_of_paintArgument? rfl fillPainted
    | path data argument =>
        rcases Option.map_eq_some_iff.mp painted with ⟨fill, fillPainted, rfl⟩
        exact call_of_paintArgument? rfl fillPainted
  · exact paint_of_call

theorem Palette.completes_iff_mapM_paint {palette : Palette} {strokes : List Stroke}
    {calls : List Call} :
    palette.Completes strokes calls ↔
      calls.mapM (Call.paint? fun index => palette.colors[index]?) = some strokes := by
  rw [mapM_eq_some_iff]
  simp only [Stroke.paint_eq_some_iff]
  exact ⟨List.Forall₂.flip, List.Forall₂.flip⟩

theorem Palette.script_eq_ok_iff {palette : Palette} {strokes : List Stroke} {calls : List Call} :
    palette.script strokes = ⟨calls, .ok ()⟩ ↔ palette.Completes strokes calls := by
  constructor
  · intro scriptEq
    have ended : (palette.script strokes).ending = .ok () := by rw [scriptEq]
    have called := completes_of_ending_ok ended
    rw [scriptEq] at called
    exact called
  · exact script_of_completes

/-! ## Scopes of strokes -/

/-- What a call does to scopes, as a step of a Dyck word. -/
def Call.scopeStep? : Call → Option DyckStep
  | .beginGroup _ => some .U
  | .beginPlacement _ => some .U
  | .endScope => some .D
  | _ => none

def Stroke.scopeStep? (stroke : Stroke) : Option DyckStep :=
  (stroke.withArgument none).scopeStep?

/-- The scopes of strokes are matched and properly nested. -/
def ScopesNested (strokes : List Stroke) : Prop :=
  ∃ word : DyckWord, strokes.filterMap Stroke.scopeStep? = word.toList

namespace ScopesNested

theorem nil : ScopesNested [] := ⟨0, rfl⟩

theorem append {left right : List Stroke} (leftNested : ScopesNested left)
    (rightNested : ScopesNested right) : ScopesNested (left ++ right) := by
  rcases leftNested with ⟨leftWord, leftEq⟩
  rcases rightNested with ⟨rightWord, rightEq⟩
  exact ⟨leftWord + rightWord, by rw [List.filterMap_append, leftEq, rightEq]; rfl⟩

theorem enclosed {opening : Stroke} {inside : List Stroke} (opens : opening.scopeStep? = some .U)
    (nested : ScopesNested inside) : ScopesNested (opening :: (inside ++ [.endScope])) := by
  rcases nested with ⟨word, wordEq⟩
  exact ⟨word.nest, by rw [List.filterMap_cons_some opens, List.filterMap_append, wordEq]; rfl⟩

mutual

theorem strokes (element : Element) : ScopesNested element.strokes := by
  cases element with
  | path data fill => exact ⟨0, rfl⟩
  | circle centerX centerY radius fill => exact ⟨0, rfl⟩
  | ellipse centerX centerY radiusX radiusY fill => exact ⟨0, rfl⟩
  | group fill children => exact enclosed rfl (strokesOfAll children)

theorem strokesOfAll (elements : List Element) : ScopesNested (Element.strokesOfAll elements) := by
  cases elements with
  | nil => exact nil
  | cons first rest => exact (strokes first).append (strokesOfAll rest)

end

theorem placementStrokes (transform : Transform) (glyph : List Group) :
    ScopesNested (placementStrokes transform glyph) := by
  have groupsNested := strokesOfAll (glyph.map Group.element)
  rw [Element.strokesOfAll_map_element] at groupsNested
  exact enclosed rfl groupsNested

end ScopesNested

theorem Palette.Completes.scopeSteps {palette : Palette} {strokes : List Stroke}
    {calls : List Call} (called : palette.Completes strokes calls) :
    calls.filterMap Call.scopeStep? = strokes.filterMap Stroke.scopeStep? := by
  have stepsEq : calls.map Call.scopeStep? = strokes.map Stroke.scopeStep? := by
    apply called.map_eq
    intro stroke argument
    cases stroke <;> rfl
  have steps := congrArg (List.filterMap id) stepsEq
  rw [List.filterMap_map, List.filterMap_map] at steps
  exact steps

/-! ## Drawings -/

/-- The calls of a drawing tell what is drawn: a decoder accepts exactly the calls of drawings that
succeed, under the colours that the definitions of the palette bind to the indices. -/
structure Decodes {shape : Type} (drawing : Palette → shape → Drawing Recorder Unit)
    (fills : shape → List (Option Color))
    (decode : (Nat → Option Color) → List Call → Option shape) : Prop where
  /-- Calls are decoded to what they have been made for, and to nothing else. -/
  decoded_iff : ∀ palette drawn calls,
    decode (boundColor? (Recorder.record (Drawing.palette palette) none).1) calls = some drawn ↔
      Recorder.record (drawing palette drawn) none = (calls, .ok ())
  /-- What is drawn with colours of the palette is recovered. -/
  recovered : ∀ palette drawn,
    (∀ color, some color ∈ fills drawn → palette.contains color = true) →
    decode (boundColor? (Recorder.record (Drawing.palette palette) none).1)
      (Recorder.record (drawing palette drawn) none).1 = some drawn
  /-- What is drawn with the same calls is the same. -/
  eq_of_calls_eq : ∀ palette left right,
    (∀ color, some color ∈ fills left → palette.contains color = true) →
    (∀ color, some color ∈ fills right → palette.contains color = true) →
    (Recorder.record (drawing palette left) none).1 =
      (Recorder.record (drawing palette right) none).1 →
    left = right
  /-- Every scope that is opened is closed, and scopes are properly nested. -/
  nested : ∀ palette drawn,
    (∀ color, some color ∈ fills drawn → palette.contains color = true) →
    ∃ word : DyckWord,
      (Recorder.record (drawing palette drawn) none).1.filterMap Call.scopeStep? = word.toList

/-- What is read back from its own strokes is read back from its calls. -/
theorem decodes_perform {shape : Type} {strokesOf : shape → List Stroke}
    {ofStrokes? : List Stroke → Option shape}
    (readIff : ∀ strokes drawn, ofStrokes? strokes = some drawn ↔ strokes = strokesOf drawn)
    (nested : ∀ drawn, ScopesNested (strokesOf drawn)) :
    Decodes (fun palette drawn => Drawing.perform (palette.script (strokesOf drawn)))
      (fun drawn => (strokesOf drawn).filterMap Stroke.fill?)
      (fun colorOf calls => (calls.mapM (Call.paint? colorOf)).bind ofStrokes?) := by
  have completes : ∀ (palette : Palette) drawn,
      (∀ color, some color ∈ (strokesOf drawn).filterMap Stroke.fill? →
        palette.contains color = true) →
      palette.Completes (strokesOf drawn) (palette.script (strokesOf drawn)).calls := by
    intro palette drawn registered
    simp only [Palette.contains_iff] at registered
    exact Palette.completes_of_ending_ok (Palette.ending_script_eq_ok_iff.mpr registered)
  have decodedIff : ∀ (palette : Palette) drawn calls,
      (calls.mapM (Call.paint? fun index => palette.colors[index]?)).bind ofStrokes? = some drawn ↔
        palette.Completes (strokesOf drawn) calls := by
    intro palette drawn calls
    rw [Palette.completes_iff_mapM_paint, Option.bind_eq_some_iff]
    simp only [readIff, exists_eq_right]
  have recovered : ∀ (palette : Palette) drawn,
      (∀ color, some color ∈ (strokesOf drawn).filterMap Stroke.fill? →
        palette.contains color = true) →
      ((palette.script (strokesOf drawn)).calls.mapM
        (Call.paint? fun index => palette.colors[index]?)).bind ofStrokes? = some drawn :=
    fun palette drawn registered => (decodedIff _ _ _).mpr (completes palette drawn registered)
  refine ⟨?_, ?_, ?_, ?_⟩
  · intro palette drawn calls
    rw [Recorder.record_perform, Recorder.boundColor?_palette, decodedIff,
      ← Palette.script_eq_ok_iff]
    cases palette.script (strokesOf drawn)
    simp
  · intro palette drawn registered
    rw [Recorder.record_perform, Recorder.boundColor?_palette]
    exact recovered palette drawn registered
  · intro palette left right leftRegistered rightRegistered same
    rw [Recorder.record_perform, Recorder.record_perform] at same
    have leftRecovered := recovered palette left leftRegistered
    rw [show (palette.script (strokesOf left)).calls = _ from same,
      recovered palette right rightRegistered] at leftRecovered
    exact (Option.some.inj leftRecovered).symm
  · intro palette drawn registered
    rw [Recorder.record_perform, (completes palette drawn registered).scopeSteps]
    exact nested drawn

/-- Emission loses nothing: an element, and a placed glyph with its transform, are decoded from
their calls, and the calls open and close their scopes in matching pairs. -/
theorem decodes_element_and_place :
    Decodes Drawing.element Element.fills Element.ofCalls? ∧
      Decodes (fun palette placed => Drawing.place palette placed.1 placed.2)
        (fun placed => glyphFills placed.2) placementOfCalls? := by
  constructor
  · have decodes := decodes_perform
      (fun _ _ => Element.ofStrokes?_eq_some_iff) ScopesNested.strokes
    simp only [← Drawing.element_eq_perform, ← Element.fills_eq_strokes] at decodes
    exact decodes
  · have readIff : ∀ (strokes : List Stroke) (placed : Transform × List Group),
        placementOfStrokes? strokes = some placed ↔
          strokes = placementStrokes placed.1 placed.2 :=
      fun _ _ => placementOfStrokes?_eq_some_iff
    have decodes := decodes_perform readIff
      fun placed => ScopesNested.placementStrokes placed.1 placed.2
    simp only [← Drawing.place_eq_perform, ← glyphFills_eq_strokes] at decodes
    exact decodes

end TikzGlyph
