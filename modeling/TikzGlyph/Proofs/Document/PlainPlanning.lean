import TikzGlyph.Proofs.Document.Prepared

/-!
# Planning without a table

The plain way to collect the colours of a document goes over the parts of its specification and
reads the glyph of every placement afresh. Planning reads every glyph once and remembers it. This
file shows that the difference cannot be seen in the outcome: both give the same palette or stop
with the same fault, and the glyphs of a plan are those a fresh reading gives. It can be seen in the
look-ups, which planning makes once for each identifier.
-/

namespace TikzGlyph

/-- Collects the colours of a document with every glyph read at each of its placements. -/
def plainPalette (catalog : Catalog) (spec : DocumentSpec) : Except CompileError Palette := do
  let collector ← spec.colors.foldlM (Collector.collectText Color.parseText) .empty
  let collector ←
    (spec.gradients.flatMap Gradient.ends).foldlM (Collector.collectText Color.parseEnd) collector
  let collector ← spec.backgrounds.foldlM (Collector.collectText Color.parseText) collector
  let collector ← spec.placements.foldlM (Collector.collectPlacement catalog) collector
  return collector.freeze

/-- The identifiers that a document places, each once, in the order of their first use. -/
def DocumentSpec.glyphIds (spec : DocumentSpec) : List String :=
  (spec.placements.map Placement.glyph).eraseDups

theorem nodup_eraseDups (values : List String) : values.eraseDups.Nodup := by
  induction length_eq : values.length using Nat.strongRecOn generalizing values with
  | ind length ih =>
      cases values with
      | nil => exact List.nodup_nil
      | cons first rest =>
          have shorter : (rest.filter fun value => !value == first).length < length := by
            rw [← length_eq, List.length_cons]
            exact Nat.lt_succ_of_le (List.length_filter_le _ rest)
          rw [List.eraseDups_cons, List.nodup_cons]
          exact ⟨by simp, ih _ shorter _ rfl⟩

theorem plainPalette_eq_ofSpec (catalog : Catalog) (spec : DocumentSpec) :
    plainPalette catalog spec = (do
      let named ← Collector.ofSpec spec
      let collector ← spec.placements.foldlM (Collector.collectPlacement catalog) named
      return collector.freeze) := by
  simp only [plainPalette, Collector.ofSpec_eq_foldlM, bind_assoc]

namespace DocumentPlan

variable {catalog : Catalog} {spec : DocumentSpec} {plan : DocumentPlan}

/-- The table of glyphs leaves no mark on the palette or on the fault. -/
theorem map_palette_prepare (catalog : Catalog) (spec : DocumentSpec) :
    (prepare catalog spec).map DocumentPlan.palette = plainPalette catalog spec := by
  rw [plainPalette_eq_ofSpec, prepare]
  cases collected : Collector.ofSpec spec with
  | error cause =>
      rw [run_planning_of_error collected]
      rfl
  | ok named =>
      have collectorEq := collector_collectGlyphs (GlyphTable.sound_nil catalog named)
        spec.placements []
      rw [run_planning_of_ok collected]
      change _ = (do
        let collector ← spec.placements.foldlM (Collector.collectPlacement catalog) named
        return collector.freeze : Except CompileError Palette)
      rw [← collectorEq]
      cases ((collectGlyphs catalog [] named spec.placements).run.run []).1 <;> rfl

theorem lookups_of_hasBadColor (bad : spec.HasBadColor) : lookups catalog spec = [] := by
  rcases Collector.exists_ofSpec_eq_error_iff.mpr bad with ⟨cause, refused⟩
  rw [lookups, run_planning_of_error refused]

theorem lookups_of_not_hasBadColor (good : ¬spec.HasBadColor) :
    lookups catalog spec = catalog.upToFailure spec.glyphIds := by
  cases collected : Collector.ofSpec spec with
  | error cause => exact absurd (Collector.exists_ofSpec_eq_error_iff.mp ⟨cause, collected⟩) good
  | ok named =>
      have nothingKnown : GlyphTable.missing [] (spec.placements.map Placement.glyph) =
          spec.glyphIds := by
        simp [GlyphTable.missing, DocumentSpec.glyphIds]
      rw [lookups, run_planning_of_ok collected, ← nothingKnown]
      exact lookups_collectGlyphs catalog [] named spec.placements []

theorem nodup_lookups (catalog : Catalog) (spec : DocumentSpec) :
    (lookups catalog spec).Nodup := by
  by_cases bad : spec.HasBadColor
  · rw [lookups_of_hasBadColor bad]
    exact List.nodup_nil
  · rw [lookups_of_not_hasBadColor bad]
    exact (nodup_eraseDups _).sublist (catalog.upToFailure_isPrefix spec.glyphIds).sublist

/-- A plan holds fresh readings of exactly the placed glyphs, and it places them as such. -/
structure ReadsFresh (plan : DocumentPlan) (catalog : Catalog) (spec : DocumentSpec) : Prop where
  glyph : ∀ id ∈ spec.placements.map Placement.glyph, ∃ source groups,
    catalog.source id = .ok source ∧ parseGlyph source = .ok groups ∧ plan.glyph? id = some groups
  noGlyph : ∀ id ∉ spec.placements.map Placement.glyph, plan.glyph? id = none
  place : ∀ placement ∈ spec.placements, ∃ source groups,
    catalog.source placement.glyph = .ok source ∧ parseGlyph source = .ok groups ∧
      plan.place placement =
        (Tikz.place placement.transform groups plan.palette).mapError .render

theorem exists_source_of_glyph {id : String} {groups : List Group}
    (read : catalog.glyph id = .ok groups) :
    ∃ source, catalog.source id = .ok source ∧ parseGlyph source = .ok groups := by
  rcases bind_eq_ok_iff.mp read with ⟨source, lookedUp, parsed⟩
  exact ⟨source, mapError_eq_ok_iff.mp lookedUp, mapError_eq_ok_iff.mp parsed⟩

/-- Planning agrees with plain collecting and looks every glyph up at most once. -/
theorem prepare_eq_plain (catalog : Catalog) (spec : DocumentSpec) :
    (prepare catalog spec).map DocumentPlan.palette = plainPalette catalog spec ∧
      (∀ plan, prepare catalog spec = .ok plan → plan.ReadsFresh catalog spec) ∧
      (spec.HasBadColor → lookups catalog spec = []) ∧
      (¬spec.HasBadColor → lookups catalog spec = catalog.upToFailure spec.glyphIds) ∧
      (lookups catalog spec).Nodup := by
  refine ⟨map_palette_prepare catalog spec, ?_, lookups_of_hasBadColor,
    lookups_of_not_hasBadColor, nodup_lookups catalog spec⟩
  intro plan prepared
  constructor
  · intro id placed
    rcases exists_glyph_of_prepare prepared placed with ⟨groups, found, read, _⟩
    rcases exists_source_of_glyph read with ⟨source, lookedUp, parsed⟩
    exact ⟨source, groups, lookedUp, parsed, found⟩
  · intro id unplaced
    exact glyph?_eq_none_of_prepare prepared unplaced
  · intro placement placementMem
    rcases exists_glyph_of_prepare prepared (List.mem_map_of_mem placementMem) with
      ⟨groups, found, read, _⟩
    rcases exists_source_of_glyph read with ⟨source, lookedUp, parsed⟩
    exact ⟨source, groups, lookedUp, parsed, place_eq_of_glyph? found⟩

/-- A glyph that is placed twice is looked up once, and it is not looked up for a document with a
text that is no colour. -/
theorem lookups_sun :
    (∃ plan,
      prepare (MemoryCatalog.empty.add "sun" "<g fill='#fc0'/>").catalog
          ⟨["#abc"], [], [], [⟨"sun", .identity⟩, ⟨"sun", .identity⟩]⟩ = .ok plan ∧
        plan.ReadsFresh (MemoryCatalog.empty.add "sun" "<g fill='#fc0'/>").catalog
          ⟨["#abc"], [], [], [⟨"sun", .identity⟩, ⟨"sun", .identity⟩]⟩) ∧
      lookups (MemoryCatalog.empty.add "sun" "<g fill='#fc0'/>").catalog
        ⟨["#abc"], [], [], [⟨"sun", .identity⟩, ⟨"sun", .identity⟩]⟩ = ["sun"] ∧
      lookups (MemoryCatalog.empty.add "sun" "<g fill='#fc0'/>").catalog
        ⟨[], [⟨"#abc", " "⟩], [], [⟨"sun", .identity⟩]⟩ = [] := by
  refine ⟨?_, ?_, ?_⟩
  · have planned : failure? (prepare (MemoryCatalog.empty.add "sun" "<g fill='#fc0'/>").catalog
        ⟨["#abc"], [], [], [⟨"sun", .identity⟩, ⟨"sun", .identity⟩]⟩) = none := by
      decide +kernel
    rcases failure?_eq_none_iff.mp planned with ⟨plan, prepared⟩
    exact ⟨plan, prepared, (prepare_eq_plain _ _).2.1 plan prepared⟩
  · rw [(prepare_eq_plain _ _).2.2.2.1]
    · decide +kernel
    · intro bad
      rcases Collector.exists_ofSpec_eq_error_iff.mpr bad with ⟨cause, refused⟩
      have named : failure? (Collector.ofSpec
          ⟨["#abc"], [], [], [⟨"sun", .identity⟩, ⟨"sun", .identity⟩]⟩) = none := by
        decide +kernel
      rw [refused] at named
      cases named
  · refine (prepare_eq_plain _ _).2.2.1 (Or.inr ⟨⟨"#abc", " "⟩, List.mem_singleton_self _, " ",
      List.mem_cons_of_mem "#abc" List.mem_cons_self, .length " " 0, by rfl⟩)

end DocumentPlan

end TikzGlyph
