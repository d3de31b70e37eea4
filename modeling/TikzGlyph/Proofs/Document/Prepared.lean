import TikzGlyph.Catalog.Memory
import TikzGlyph.Document.Preview
import TikzGlyph.Proofs.Document.Colors
import TikzGlyph.Proofs.Document.Reading
import TikzGlyph.Proofs.Tikz.Writing

/-!
# Prepared documents

Once a plan has been made, nothing that it was made for can fail. The first phase walks over the
texts and the fills to collect colours, the second phase looks the same colours up and draws. This
file shows that the phases agree: the palette of a plan has both ends of every gradient and all
fills of every placed glyph, so the palette, every placement, every gradient and the standalone
document can be written. The same holds of the preview of a glyph that can be read.
-/

namespace TikzGlyph

namespace DocumentPlan

variable {catalog : Catalog} {spec : DocumentSpec} {plan : DocumentPlan}

/-! ## From a plan to how it was made -/

/-- A specification with a text that is no colour is refused before any glyph is looked up. -/
theorem run_planning_of_error {cause : CompileError}
    (refused : Collector.ofSpec spec = .error cause) :
    (planning catalog spec).run.run [] = (.error cause, []) := by
  rw [planning, refused]
  rfl

/-- With all named colours collected, making a plan is reading the glyphs of the placements. -/
theorem run_planning_of_ok {named : Collector} (collected : Collector.ofSpec spec = .ok named) :
    (planning catalog spec).run.run [] =
      (((collectGlyphs catalog [] named spec.placements).run.run []).1.map fun reading =>
          ⟨spec, reading.1, reading.2.freeze⟩,
        ((collectGlyphs catalog [] named spec.placements).run.run []).2) := by
  rw [planning, collected]
  change (collectGlyphs catalog [] named spec.placements >>= fun reading =>
    pure (⟨spec, reading.1, reading.2.freeze⟩ : DocumentPlan)).run.run [] = _
  rw [ExceptT.run_bind, StateT.run_bind]
  rcases (collectGlyphs catalog [] named spec.placements).run.run [] with ⟨_ | _, lookups⟩ <;> rfl

/-- Behind every plan are the colours of its specification and a complete reading of its glyphs. -/
theorem exists_reading_of_prepare (prepared : prepare catalog spec = .ok plan) :
    ∃ named collector, Collector.ofSpec spec = .ok named ∧
      ((collectGlyphs catalog [] named spec.placements).run.run []).1 =
        .ok (plan.glyphs, collector) ∧
      plan = ⟨spec, plan.glyphs, collector.freeze⟩ := by
  simp only [prepare] at prepared
  cases collected : Collector.ofSpec spec with
  | error cause =>
      rw [run_planning_of_error collected] at prepared
      cases prepared
  | ok named =>
      rw [run_planning_of_ok collected] at prepared
      rcases map_eq_ok_iff.mp prepared with ⟨⟨table, collector⟩, read, rfl⟩
      exact ⟨named, collector, rfl, read, rfl⟩

theorem spec_eq_of_prepare (prepared : prepare catalog spec = .ok plan) : plan.spec = spec := by
  rcases exists_reading_of_prepare prepared with ⟨_, _, _, _, planEq⟩
  rw [planEq]

/-- The glyph of a placement has been read, and the palette has all its fills. -/
theorem exists_glyph_of_prepare (prepared : prepare catalog spec = .ok plan) {id : String}
    (placed : id ∈ spec.placements.map Placement.glyph) :
    ∃ groups, plan.glyph? id = some groups ∧ catalog.glyph id = .ok groups ∧
      ∀ color, some color ∈ glyphFills groups → color ∈ plan.palette.colors := by
  rcases exists_reading_of_prepare prepared with ⟨named, collector, _, read, planEq⟩
  rcases sound_collectGlyphs (GlyphTable.sound_nil catalog named) read with
    ⟨sound, _, identifiers⟩
  rcases Option.isSome_iff_exists.mp ((identifiers id).mpr (Or.inr placed)) with ⟨groups, found⟩
  refine ⟨groups, found, sound.fresh id groups found, ?_⟩
  rw [planEq]
  exact sound.collected id groups found

theorem glyph?_eq_none_of_prepare (prepared : prepare catalog spec = .ok plan) {id : String}
    (unplaced : id ∉ spec.placements.map Placement.glyph) : plan.glyph? id = none := by
  rcases exists_reading_of_prepare prepared with ⟨named, collector, _, read, _⟩
  rcases sound_collectGlyphs (GlyphTable.sound_nil catalog named) read with ⟨_, _, identifiers⟩
  rw [← Option.not_isSome_iff_eq_none]
  intro found
  rcases (identifiers id).mp found with known | placed
  · cases known
  · exact unplaced placed

theorem exists_index_of_prepare (prepared : prepare catalog spec = .ok plan)
    {gradient : Gradient} (gradientMem : gradient ∈ spec.gradients) {text : String}
    (endMem : text ∈ gradient.ends) :
    ∃ color index, Color.parseHex text = .ok color ∧ plan.palette.index color = .ok index := by
  rcases exists_reading_of_prepare prepared with ⟨named, collector, collected, read, planEq⟩
  rcases sound_collectGlyphs (GlyphTable.sound_nil catalog named) read with ⟨_, continued, _⟩
  rcases Collector.exists_ends_of_ofSpec collected gradientMem endMem with
    ⟨color, colorRead, present⟩
  have registered : color ∈ plan.palette.colors := by
    rw [planEq]
    exact continued.subset present
  rcases Palette.exists_index registered with ⟨index, found⟩
  exact ⟨color, index, colorRead, found⟩

/-! ## Drawing the parts of a plan -/

theorem exists_paletteText (plan : DocumentPlan) : ∃ text, plan.paletteText = .ok text := by
  rcases Tikz.exists_paletteText plan.palette with ⟨text, written⟩
  exact ⟨text, mapError_eq_ok_iff.mpr written⟩

theorem place_eq_of_glyph? {placement : Placement} {groups : List Group}
    (found : plan.glyph? placement.glyph = some groups) :
    plan.place placement =
      (Tikz.place placement.transform groups plan.palette).mapError .render := by
  rw [place, found]

theorem place_eq_of_glyph?_eq_none {placement : Placement}
    (missing : plan.glyph? placement.glyph = none) :
    plan.place placement = .error (.catalog (.unknownGlyph placement.glyph)) := by
  rw [place, missing]

theorem exists_place_of_prepare (prepared : prepare catalog spec = .ok plan)
    {placement : Placement} (placed : placement.glyph ∈ spec.placements.map Placement.glyph) :
    ∃ text, plan.place placement = .ok text := by
  rcases exists_glyph_of_prepare prepared placed with ⟨groups, found, _, registered⟩
  rcases Tikz.exists_place placement.transform registered with ⟨text, written⟩
  exact ⟨text, by rw [place_eq_of_glyph? found, written]; rfl⟩

theorem exists_placementsText_of_prepare (prepared : prepare catalog spec = .ok plan) :
    ∃ text, plan.placementsText = .ok text := by
  have specEq : plan.spec = spec := spec_eq_of_prepare prepared
  have allPlaced :
      ∀ placement ∈ plan.spec.placements, ∃ text, plan.place placement = .ok text := by
    intro placement placementMem
    rw [specEq] at placementMem
    exact exists_place_of_prepare prepared (List.mem_map_of_mem placementMem)
  rcases exists_mapM_of_forall allPlaced with ⟨blocks, drawn⟩
  exact ⟨_, by rw [placementsText, drawn]; rfl⟩

theorem exists_standalone_of_prepare (prepared : prepare catalog spec = .ok plan) :
    ∃ text, plan.standalone = .ok text := by
  rcases plan.exists_paletteText with ⟨definitions, definitionsEq⟩
  rcases exists_placementsText_of_prepare prepared with ⟨body, bodyEq⟩
  refine ⟨Tikz.standaloneDocument definitions body, ?_⟩
  rw [standalone, definitionsEq, bodyEq]
  rfl

theorem colorIndex_eq_ok_iff {text : String} {index : Nat} :
    plan.colorIndex text = .ok index ↔
      ∃ color, Color.parseHex text = .ok color ∧ plan.palette.index color = .ok index := by
  rw [colorIndex, bind_eq_ok_iff]
  simp only [mapError_eq_ok_iff]

theorem shade_eq_of_index {gradient : Gradient} {bottom top : Color} {bottomIndex topIndex : Nat}
    (bottomRead : Color.parseHex gradient.bottom = .ok bottom)
    (topRead : Color.parseHex gradient.top = .ok top)
    (bottomFound : plan.palette.index bottom = .ok bottomIndex)
    (topFound : plan.palette.index top = .ok topIndex) :
    plan.shade gradient = .ok (Tikz.shading bottomIndex topIndex) := by
  rw [shade, colorIndex_eq_ok_iff.mpr ⟨bottom, bottomRead, bottomFound⟩,
    colorIndex_eq_ok_iff.mpr ⟨top, topRead, topFound⟩]
  rfl

/-- A plan can draw everything that its specification asks for, and it refuses foreign glyphs. -/
structure CanDraw (plan : DocumentPlan) (spec : DocumentSpec) : Prop where
  palette : ∃ text, plan.paletteText = .ok text
  placements : ∃ text, plan.placementsText = .ok text
  standalone : ∃ text, plan.standalone = .ok text
  /-- A gradient of the specification is shaded between the names of its two colours. -/
  shade : ∀ gradient ∈ spec.gradients, ∃ bottom top bottomIndex topIndex,
    Color.parseHex gradient.bottom = .ok bottom ∧ Color.parseHex gradient.top = .ok top ∧
      plan.palette.index bottom = .ok bottomIndex ∧ plan.palette.index top = .ok topIndex ∧
      plan.shade gradient =
        .ok ("\\shade[shading=axis, bottom color=c" ++ bottomIndex.repr ++ ", top color=c" ++
          topIndex.repr ++
          ", shading angle=45] (current page.south west) rectangle (current page.north east);")
  /-- A glyph of the specification can be placed anywhere. -/
  place : ∀ placement : Placement, placement.glyph ∈ spec.placements.map Placement.glyph →
    ∃ text, plan.place placement = .ok text
  /-- Every other glyph is unknown. -/
  refuse : ∀ placement : Placement, placement.glyph ∉ spec.placements.map Placement.glyph →
    plan.place placement = .error (.catalog (.unknownGlyph placement.glyph))

theorem canDraw_of_prepare (prepared : prepare catalog spec = .ok plan) : plan.CanDraw spec := by
  refine ⟨plan.exists_paletteText, exists_placementsText_of_prepare prepared,
    exists_standalone_of_prepare prepared, ?_, ?_, ?_⟩
  · intro gradient gradientMem
    have bottomMem : gradient.bottom ∈ gradient.ends := List.mem_cons_self
    have topMem : gradient.top ∈ gradient.ends :=
      List.mem_cons_of_mem gradient.bottom List.mem_cons_self
    rcases exists_index_of_prepare prepared gradientMem bottomMem with
      ⟨bottom, bottomIndex, bottomRead, bottomFound⟩
    rcases exists_index_of_prepare prepared gradientMem topMem with
      ⟨top, topIndex, topRead, topFound⟩
    refine ⟨bottom, top, bottomIndex, topIndex, bottomRead, topRead, bottomFound, topFound, ?_⟩
    rw [← Tikz.shading_eq]
    exact shade_eq_of_index bottomRead topRead bottomFound topFound
  · intro placement placed
    exact exists_place_of_prepare prepared placed
  · intro placement unplaced
    exact place_eq_of_glyph?_eq_none (glyph?_eq_none_of_prepare prepared unplaced)

/-- The palette of a preview has all fills of its glyph, so a glyph that can be read can be shown.
-/
theorem exists_preview_of_parseSource {source : String} {groups : List Group}
    (read : parseSource source = .ok groups) : ∃ text, preview source = .ok text := by
  have registered : ∀ color, some color ∈ glyphFills groups →
      color ∈ (Palette.ofGlyph groups).colors := by
    intro color colorMem
    exact Collector.mem_collect.mpr (Or.inr colorMem)
  rcases Tikz.exists_paletteText (Palette.ofGlyph groups) with ⟨definitions, definitionsEq⟩
  rcases Tikz.exists_place .identity registered with ⟨body, bodyEq⟩
  refine ⟨Tikz.standaloneDocument definitions body, ?_⟩
  rw [preview, read]
  change (do
    let definitions ← (Tikz.paletteText (Palette.ofGlyph groups)).mapError .render
    let body ← (Tikz.place .identity groups (Palette.ofGlyph groups)).mapError .render
    return Tikz.standaloneDocument definitions body : Except CompileError String) = _
  rw [definitionsEq, bodyEq]
  rfl

/-- A prepared plan can draw everything, and so can the preview of a glyph that can be read. -/
theorem canDraw_and_exists_preview :
    (∀ catalog spec plan, prepare catalog spec = .ok plan → plan.CanDraw spec) ∧
      ∀ source groups, parseSource source = .ok groups → ∃ text, preview source = .ok text :=
  ⟨fun _ _ _ => canDraw_of_prepare, fun _ _ => exists_preview_of_parseSource⟩

/-- A document with a glyph from a catalog and a gradient has a plan that can draw it, and its glyph
can be previewed. -/
theorem canDraw_sun :
    (∃ plan,
      prepare (MemoryCatalog.empty.add "sun" "<circle cx='1' cy='2' r='3' fill='#fc0'/>").catalog
          ⟨["#abc"], [⟨"000", "#ffffff"⟩], [" "], [⟨"sun", .identity⟩]⟩ = .ok plan ∧
        plan.CanDraw ⟨["#abc"], [⟨"000", "#ffffff"⟩], [" "], [⟨"sun", .identity⟩]⟩) ∧
      ∃ text, preview "<circle cx='1' cy='2' r='3' fill='#fc0'/>" = .ok text := by
  constructor
  · have planned : failure? (prepare
        (MemoryCatalog.empty.add "sun" "<circle cx='1' cy='2' r='3' fill='#fc0'/>").catalog
        ⟨["#abc"], [⟨"000", "#ffffff"⟩], [" "], [⟨"sun", .identity⟩]⟩) = none := by
      decide +kernel
    rcases failure?_eq_none_iff.mp planned with ⟨plan, prepared⟩
    exact ⟨plan, prepared, canDraw_and_exists_preview.1 _ _ plan prepared⟩
  · have parsed : failure? (parseSource "<circle cx='1' cy='2' r='3' fill='#fc0'/>") = none := by
      decide +kernel
    rcases failure?_eq_none_iff.mp parsed with ⟨groups, read⟩
    exact canDraw_and_exists_preview.2 _ groups read

end DocumentPlan

end TikzGlyph
