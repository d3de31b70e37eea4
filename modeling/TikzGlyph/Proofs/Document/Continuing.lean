import TikzGlyph.Proofs.Document.Prepared

/-!
# Documents that go on

A document may be continued with more placements, and what has been drawn of it stays as it is.
The colours that a specification names are collected before those of any glyph, and the glyphs are
read in the order of their first use. Planning the longer document therefore goes through the plan
of the shorter one: the new glyphs only add colours after the old ones, every colour keeps its
index, and a drawing depends on a palette through the indices of its own colours.
-/

namespace TikzGlyph

/-- A specification with more placements at its end. -/
def DocumentSpec.append (spec : DocumentSpec) (added : List Placement) : DocumentSpec :=
  { spec with placements := spec.placements ++ added }

theorem collectGlyphs_append (catalog : Catalog) (table : GlyphTable) (collector : Collector)
    (left right : List Placement) :
    collectGlyphs catalog table collector (left ++ right) =
      (do
        let (leftTable, leftCollector) ← collectGlyphs catalog table collector left
        collectGlyphs catalog leftTable leftCollector right) := by
  induction left generalizing table collector with
  | nil => rfl
  | cons placement rest ih =>
      rw [List.cons_append]
      cases known : table.lookup placement.glyph with
      | some groups => simp only [collectGlyphs_of_known known, ih]
      | none => simp only [collectGlyphs_of_unknown known, ih, bind_assoc]

/-- Reading the glyphs of two runs of placements is reading those of the first run completely and
going on from there. -/
theorem exists_reading_of_append {catalog : Catalog} {table finalTable : GlyphTable}
    {collector finalCollector : Collector} {left right : List Placement} {lookups : List String}
    (read : ((collectGlyphs catalog table collector (left ++ right)).run.run lookups).1 =
      .ok (finalTable, finalCollector)) :
    ∃ leftTable leftCollector leftLookups,
      ((collectGlyphs catalog table collector left).run.run lookups).1 =
          .ok (leftTable, leftCollector) ∧
        ((collectGlyphs catalog leftTable leftCollector right).run.run leftLookups).1 =
          .ok (finalTable, finalCollector) := by
  rw [collectGlyphs_append, ExceptT.run_bind, StateT.run_bind] at read
  rcases leftRun : (collectGlyphs catalog table collector left).run.run lookups with
    ⟨outcome, leftLookups⟩
  rw [leftRun] at read
  cases outcome with
  | error cause => cases read
  | ok reading =>
      rcases reading with ⟨leftTable, leftCollector⟩
      exact ⟨leftTable, leftCollector, leftLookups, rfl, read⟩

theorem Palette.entries_of_continued {palette longer : Palette}
    (continued : palette.colors <+: longer.colors) : palette.entries <+: longer.entries := by
  rcases continued with ⟨added, addedEq⟩
  simp [entries, ← addedEq, List.zipIdx_append]

namespace DocumentPlan

variable {catalog : Catalog} {spec : DocumentSpec} {added : List Placement}
  {plan longer : DocumentPlan}

/-- A longer document draws everything that a shorter one draws in the same way, and its own blocks
come after. -/
structure Continues (longer plan : DocumentPlan) (spec : DocumentSpec) (added : List Placement) :
    Prop where
  /-- Every colour keeps its index. -/
  entries : plan.palette.entries <+: longer.palette.entries
  index : ∀ color index, plan.palette.index color = .ok index →
    longer.palette.index color = .ok index
  place : ∀ placement : Placement, placement.glyph ∈ spec.placements.map Placement.glyph →
    ∃ block, plan.place placement = .ok block ∧ longer.place placement = .ok block
  shade : ∀ gradient ∈ spec.gradients,
    ∃ text, plan.shade gradient = .ok text ∧ longer.shade gradient = .ok text
  placementsText : ∃ blocks addedBlocks, spec.placements.mapM plan.place = .ok blocks ∧
    added.mapM longer.place = .ok addedBlocks ∧
    plan.placementsText = .ok ("\n".intercalate blocks) ∧
    longer.placementsText = .ok ("\n".intercalate (blocks ++ addedBlocks))

theorem prepare_eq_of_reading {named collector : Collector} {glyphs : GlyphTable}
    (collected : Collector.ofSpec spec = .ok named)
    (read : ((collectGlyphs catalog [] named spec.placements).run.run []).1 =
      .ok (glyphs, collector)) :
    prepare catalog spec = .ok ⟨spec, glyphs, collector.freeze⟩ := by
  simp only [prepare, run_planning_of_ok collected, read]
  rfl

/-- Behind the plan of a longer document is a plan of the shorter one, whose colours it has first.
-/
theorem exists_prepare_of_append (prepared : prepare catalog (spec.append added) = .ok longer) :
    ∃ plan, prepare catalog spec = .ok plan ∧ plan.palette.colors <+: longer.palette.colors := by
  rcases exists_reading_of_prepare prepared with ⟨named, collector, collected, read, longerEq⟩
  rcases exists_reading_of_append read with
    ⟨leftTable, leftCollector, leftLookups, leftRead, rightRead⟩
  rcases sound_collectGlyphs (GlyphTable.sound_nil catalog named) leftRead with ⟨leftSound, _, _⟩
  rcases sound_collectGlyphs leftSound rightRead with ⟨_, continued, _⟩
  refine ⟨_, prepare_eq_of_reading collected leftRead, ?_⟩
  rw [longerEq]
  exact continued

theorem place_eq_of_continued (prepared : prepare catalog spec = .ok plan)
    (longerPrepared : prepare catalog (spec.append added) = .ok longer)
    (continued : plan.palette.colors <+: longer.palette.colors) {placement : Placement}
    (placed : placement.glyph ∈ spec.placements.map Placement.glyph) :
    longer.place placement = plan.place placement := by
  have placedLonger : placement.glyph ∈ (spec.append added).placements.map Placement.glyph := by
    simp only [DocumentSpec.append, List.map_append]
    exact List.mem_append_left _ placed
  rcases exists_glyph_of_prepare prepared placed with ⟨groups, found, read, registered⟩
  rcases exists_glyph_of_prepare longerPrepared placedLonger with
    ⟨longerGroups, longerFound, longerRead, _⟩
  have sameGroups : longerGroups = groups := by
    rw [read] at longerRead
    exact (Except.ok.inj longerRead).symm
  subst sameGroups
  rw [place_eq_of_glyph? found, place_eq_of_glyph? longerFound,
    Tikz.place_eq_of_continued continued registered]

theorem shade_of_continued (prepared : prepare catalog spec = .ok plan)
    (continued : plan.palette.colors <+: longer.palette.colors) {gradient : Gradient}
    (gradientMem : gradient ∈ spec.gradients) :
    ∃ text, plan.shade gradient = .ok text ∧ longer.shade gradient = .ok text := by
  rcases (canDraw_of_prepare prepared).shade gradient gradientMem with
    ⟨bottom, top, bottomIndex, topIndex, bottomRead, topRead, bottomFound, topFound, shaded⟩
  refine ⟨_, shaded, ?_⟩
  rw [← Tikz.shading_eq]
  apply shade_eq_of_index bottomRead topRead
  · exact Palette.index_of_continued continued bottomFound
  · exact Palette.index_of_continued continued topFound

theorem exists_blocks_of_prepare (prepared : prepare catalog spec = .ok plan)
    {placements : List Placement} (placed : ∀ placement ∈ placements,
      placement.glyph ∈ spec.placements.map Placement.glyph) :
    ∃ blocks, placements.mapM plan.place = .ok blocks := by
  apply exists_mapM_of_forall
  intro placement placementMem
  exact exists_place_of_prepare prepared (placed placement placementMem)

theorem placementsText_of_append (prepared : prepare catalog spec = .ok plan)
    (longerPrepared : prepare catalog (spec.append added) = .ok longer)
    (continued : plan.palette.colors <+: longer.palette.colors) :
    ∃ blocks addedBlocks, spec.placements.mapM plan.place = .ok blocks ∧
      added.mapM longer.place = .ok addedBlocks ∧
      plan.placementsText = .ok ("\n".intercalate blocks) ∧
      longer.placementsText = .ok ("\n".intercalate (blocks ++ addedBlocks)) := by
  have ownPlaced : ∀ placement ∈ spec.placements,
      placement.glyph ∈ spec.placements.map Placement.glyph := by
    intro placement placementMem
    exact List.mem_map_of_mem placementMem
  have addedPlaced : ∀ placement ∈ added,
      placement.glyph ∈ (spec.append added).placements.map Placement.glyph := by
    intro placement placementMem
    apply List.mem_map_of_mem
    exact List.mem_append_right spec.placements placementMem
  rcases exists_blocks_of_prepare prepared ownPlaced with ⟨blocks, drawn⟩
  rcases exists_blocks_of_prepare longerPrepared addedPlaced with ⟨addedBlocks, addedDrawn⟩
  have drawnLonger : spec.placements.mapM longer.place = .ok blocks := by
    rw [← drawn]
    apply mapM_congr_of_mem
    intro placement placementMem
    exact place_eq_of_continued prepared longerPrepared continued
      (ownPlaced placement placementMem)
  refine ⟨blocks, addedBlocks, drawn, addedDrawn, ?_, ?_⟩
  · simp [placementsText, spec_eq_of_prepare prepared, drawn, Except.map]
  · have allDrawn : (spec.placements ++ added).mapM longer.place = .ok (blocks ++ addedBlocks) := by
      rw [List.mapM_append, drawnLonger, addedDrawn]
      rfl
    simp [placementsText, spec_eq_of_prepare longerPrepared, DocumentSpec.append, allDrawn,
      Except.map]

/-- If a document can be planned, so can the document without its last placements, and the longer
document only goes on where the shorter one ends. -/
theorem exists_continued_of_append (prepared : prepare catalog (spec.append added) = .ok longer) :
    ∃ plan, prepare catalog spec = .ok plan ∧ longer.Continues plan spec added := by
  rcases exists_prepare_of_append prepared with ⟨plan, planPrepared, continued⟩
  refine ⟨plan, planPrepared, ?_, ?_, ?_, ?_, ?_⟩
  · exact Palette.entries_of_continued continued
  · intro color index found
    exact Palette.index_of_continued continued found
  · intro placement placed
    rcases exists_place_of_prepare planPrepared placed with ⟨block, drawn⟩
    refine ⟨block, drawn, ?_⟩
    rw [place_eq_of_continued planPrepared prepared continued placed, drawn]
  · intro gradient gradientMem
    exact shade_of_continued planPrepared continued gradientMem
  · exact placementsText_of_append planPrepared prepared continued

/-- A moon after a sun: the sun keeps its colours although the moon has one of them too. -/
theorem continues_sun_moon :
    ∃ longer plan,
      prepare ((MemoryCatalog.empty.add "sun" "<g fill='#fc0'/>").add "moon"
          "<circle cx='1' cy='2' r='3' fill='#eef'/><g fill='#fc0'/>").catalog
          (DocumentSpec.append ⟨["#abc"], [⟨"000", "#ffffff"⟩], [" "], [⟨"sun", .identity⟩]⟩
            [⟨"moon", .identity⟩, ⟨"sun", .identity⟩]) = .ok longer ∧
        prepare ((MemoryCatalog.empty.add "sun" "<g fill='#fc0'/>").add "moon"
          "<circle cx='1' cy='2' r='3' fill='#eef'/><g fill='#fc0'/>").catalog
          ⟨["#abc"], [⟨"000", "#ffffff"⟩], [" "], [⟨"sun", .identity⟩]⟩ = .ok plan ∧
        longer.Continues plan ⟨["#abc"], [⟨"000", "#ffffff"⟩], [" "], [⟨"sun", .identity⟩]⟩
          [⟨"moon", .identity⟩, ⟨"sun", .identity⟩] := by
  have planned : failure? (prepare ((MemoryCatalog.empty.add "sun" "<g fill='#fc0'/>").add "moon"
      "<circle cx='1' cy='2' r='3' fill='#eef'/><g fill='#fc0'/>").catalog
      (DocumentSpec.append ⟨["#abc"], [⟨"000", "#ffffff"⟩], [" "], [⟨"sun", .identity⟩]⟩
        [⟨"moon", .identity⟩, ⟨"sun", .identity⟩])) = none := by
    decide +kernel
  rcases failure?_eq_none_iff.mp planned with ⟨longer, prepared⟩
  rcases exists_continued_of_append prepared with ⟨plan, planPrepared, continues⟩
  exact ⟨longer, plan, prepared, planPrepared, continues⟩

end DocumentPlan

end TikzGlyph
