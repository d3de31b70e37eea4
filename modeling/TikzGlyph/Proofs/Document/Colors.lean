import TikzGlyph.Document.Plan
import TikzGlyph.Proofs.Palette.Collecting
import TikzGlyph.Proofs.Result

/-!
# Colours named by a document

Before any glyph is looked up, the texts of a specification are read as colours one after the other:
those used directly, the ends of the gradients, and the backgrounds. The collector that comes out
has been fed exactly the colours of these texts, and it comes out unless one of the texts is no
colour.
-/

namespace TikzGlyph

/-- Both ends of a gradient, the bottom first. -/
def Gradient.ends (gradient : Gradient) : List String := [gradient.bottom, gradient.top]

/-- Reads the end of a gradient, which may not be blank. -/
def Color.parseEnd (text : String) : Except ColorFormatError (Option Color) :=
  (Color.parseHex text).map some

/-- Reads a text that may be blank. -/
def Color.parseText (text : String) : Except ColorFormatError (Option Color) :=
  Color.parseFill (some text)

def Collector.collectText (parse : String → Except ColorFormatError (Option Color))
    (collector : Collector) (text : String) : Except CompileError Collector :=
  ((parse text).mapError .colorFormat).map fun color => collector.collect [color]

/-- Some text of a specification that has to be a colour is none. -/
def DocumentSpec.HasBadColor (spec : DocumentSpec) : Prop :=
  (∃ text ∈ spec.colors ++ spec.backgrounds, ∃ cause, Color.parseText text = .error cause) ∨
    ∃ gradient ∈ spec.gradients, ∃ text ∈ gradient.ends, ∃ cause,
      Color.parseHex text = .error cause

namespace Collector

/-- Feeding texts one by one is reading all of them and feeding their colours at once. -/
theorem foldlM_collectText (parse : String → Except ColorFormatError (Option Color))
    (collector : Collector) (texts : List String) :
    texts.foldlM (collectText parse) collector =
      ((texts.mapM parse).mapError .colorFormat).map collector.collect := by
  induction texts generalizing collector with
  | nil => rfl
  | cons text rest ih =>
      rw [List.foldlM_cons, List.mapM_cons, collectText]
      cases parse text with
      | error cause => rfl
      | ok color =>
          change rest.foldlM (collectText parse) (collector.collect [color]) = _
          rw [ih]
          cases rest.mapM parse with
          | error cause => rfl
          | ok colors =>
              change Except.ok ((collector.collect [color]).collect colors) =
                Except.ok (collector.collect (color :: colors))
              rw [← collect_append, List.singleton_append]

theorem collectAll_eq_foldlM (collector : Collector) (texts : List String) :
    collector.collectAll texts = texts.foldlM (collectText Color.parseText) collector := by
  induction texts generalizing collector with
  | nil => rfl
  | cons text rest ih =>
      rw [List.foldlM_cons, collectText, Color.parseText, collectAll, collectTexts]
      cases Color.parseFill (some text) with
      | error cause => rfl
      | ok color => exact ih (collector.collect [color])

theorem collectGradients_eq_foldlM (collector : Collector) (gradients : List Gradient) :
    collector.collectGradients gradients =
      (gradients.flatMap Gradient.ends).foldlM (collectText Color.parseEnd) collector := by
  induction gradients generalizing collector with
  | nil => rfl
  | cons gradient rest ih =>
      rw [List.flatMap_cons, List.foldlM_append, collectGradients, foldlM_collectText,
        Gradient.ends,
        List.mapM_cons, List.mapM_cons, List.mapM_nil, Color.parseEnd, Color.parseEnd]
      cases Color.parseHex gradient.bottom with
      | error cause => rfl
      | ok bottom =>
          cases Color.parseHex gradient.top with
          | error cause => rfl
          | ok top => exact ih (collector.collect [some bottom, some top])

theorem ofSpec_eq_foldlM (spec : DocumentSpec) :
    ofSpec spec = (do
      let collector ← spec.colors.foldlM (collectText Color.parseText) empty
      let collector ←
        (spec.gradients.flatMap Gradient.ends).foldlM (collectText Color.parseEnd) collector
      spec.backgrounds.foldlM (collectText Color.parseText) collector) := by
  simp only [ofSpec, collectAll_eq_foldlM, collectGradients_eq_foldlM]

theorem exists_foldlM_collectText_eq_error_iff
    {parse : String → Except ColorFormatError (Option Color)} {collector : Collector}
    {texts : List String} :
    (∃ cause, texts.foldlM (collectText parse) collector = .error cause) ↔
      ∃ text ∈ texts, ∃ cause, parse text = .error cause := by
  rw [← exists_mapM_eq_error_iff, foldlM_collectText]
  simp only [map_eq_error_iff, mapError_eq_error_iff]
  constructor
  · rintro ⟨_, cause, failed, _⟩
    exact ⟨cause, failed⟩
  · rintro ⟨cause, failed⟩
    exact ⟨_, cause, failed, rfl⟩

/-- When texts have been fed, each of them is read, and its colour is in the collector. -/
theorem exists_collected_of_foldlM {parse : String → Except ColorFormatError (Option Color)}
    {collector final : Collector} {texts : List String}
    (fed : texts.foldlM (collectText parse) collector = .ok final) {text : String}
    (textMem : text ∈ texts) :
    ∃ color, parse text = .ok color ∧ ∀ present, color = some present → present ∈ final.colors := by
  rw [foldlM_collectText] at fed
  rcases map_eq_ok_iff.mp fed with ⟨colors, read, rfl⟩
  rcases exists_mem_of_mapM_eq_ok (mapError_eq_ok_iff.mp read) textMem with
    ⟨color, colorMem, textRead⟩
  refine ⟨color, textRead, ?_⟩
  rintro present rfl
  exact mem_collect.mpr (Or.inr colorMem)

theorem isPrefix_of_foldlM_collectText {parse : String → Except ColorFormatError (Option Color)}
    {collector final : Collector} {texts : List String}
    (fed : texts.foldlM (collectText parse) collector = .ok final) :
    collector.colors <+: final.colors := by
  rw [foldlM_collectText] at fed
  rcases map_eq_ok_iff.mp fed with ⟨colors, _, rfl⟩
  exact isPrefix_collect collector colors

theorem ofSpec_eq_ok_iff {spec : DocumentSpec} {final : Collector} :
    ofSpec spec = .ok final ↔
      ∃ afterColors afterEnds,
        spec.colors.foldlM (collectText Color.parseText) empty = .ok afterColors ∧
        (spec.gradients.flatMap Gradient.ends).foldlM (collectText Color.parseEnd) afterColors =
          .ok afterEnds ∧
        spec.backgrounds.foldlM (collectText Color.parseText) afterEnds = .ok final := by
  rw [ofSpec_eq_foldlM, bind_eq_ok_iff]
  apply exists_congr
  intro afterColors
  rw [bind_eq_ok_iff]
  exact exists_and_left.symm

theorem exists_ends_of_ofSpec {spec : DocumentSpec} {final : Collector}
    (collected : ofSpec spec = .ok final) {gradient : Gradient}
    (gradientMem : gradient ∈ spec.gradients) {text : String} (endMem : text ∈ gradient.ends) :
    ∃ color, Color.parseHex text = .ok color ∧ color ∈ final.colors := by
  rcases ofSpec_eq_ok_iff.mp collected with ⟨afterColors, afterEnds, _, endsFed, backgroundsFed⟩
  rcases exists_collected_of_foldlM endsFed
    (List.mem_flatMap.mpr ⟨gradient, gradientMem, endMem⟩) with ⟨fill, endRead, present⟩
  rcases map_eq_ok_iff.mp endRead with ⟨color, colorRead, rfl⟩
  exact ⟨color, colorRead,
    (isPrefix_of_foldlM_collectText backgroundsFed).subset (present color rfl)⟩

/-- The colours of a specification are collected unless one of its texts is no colour. -/
theorem exists_ofSpec_eq_error_iff {spec : DocumentSpec} :
    (∃ cause, ofSpec spec = .error cause) ↔ spec.HasBadColor := by
  constructor
  · rintro ⟨cause, failed⟩
    rw [ofSpec_eq_foldlM] at failed
    rcases bind_eq_error_iff.mp failed with colorsFailed | ⟨afterColors, _, restFailed⟩
    · rcases exists_foldlM_collectText_eq_error_iff.mp ⟨cause, colorsFailed⟩ with
        ⟨text, textMem, bad⟩
      exact Or.inl ⟨text, List.mem_append_left spec.backgrounds textMem, bad⟩
    · rcases bind_eq_error_iff.mp restFailed with endsFailed | ⟨afterEnds, _, backgroundsFailed⟩
      · rcases exists_foldlM_collectText_eq_error_iff.mp ⟨cause, endsFailed⟩ with
          ⟨text, textMem, endCause, bad⟩
        rcases List.mem_flatMap.mp textMem with ⟨gradient, gradientMem, endMem⟩
        exact Or.inr ⟨gradient, gradientMem, text, endMem, endCause, map_eq_error_iff.mp bad⟩
      · rcases exists_foldlM_collectText_eq_error_iff.mp ⟨cause, backgroundsFailed⟩ with
          ⟨text, textMem, bad⟩
        exact Or.inl ⟨text, List.mem_append_right spec.colors textMem, bad⟩
  · intro bad
    cases outcome : ofSpec spec with
    | error cause => exact ⟨cause, rfl⟩
    | ok final =>
        exfalso
        rcases bad with ⟨text, textMem, cause, failed⟩ |
          ⟨gradient, gradientMem, text, endMem, cause, failed⟩
        · rcases ofSpec_eq_ok_iff.mp outcome with
            ⟨afterColors, afterEnds, colorsFed, _, backgroundsFed⟩
          have textRead : ∃ color, Color.parseText text = .ok color := by
            rcases List.mem_append.mp textMem with colorMem | backgroundMem
            · rcases exists_collected_of_foldlM colorsFed colorMem with ⟨color, read, _⟩
              exact ⟨color, read⟩
            · rcases exists_collected_of_foldlM backgroundsFed backgroundMem with ⟨color, read, _⟩
              exact ⟨color, read⟩
          rcases textRead with ⟨color, read⟩
          rw [failed] at read
          cases read
        · rcases exists_ends_of_ofSpec outcome gradientMem endMem with ⟨color, read, _⟩
          rw [failed] at read
          cases read

end Collector

end TikzGlyph
