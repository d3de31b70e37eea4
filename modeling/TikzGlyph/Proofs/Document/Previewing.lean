import TikzGlyph.Proofs.Document.Prepared

/-!
# Previews as documents

A preview goes its own way from the source of a glyph to a document. The document that places this
one glyph, unmoved, and nothing else goes the way of all documents: it looks the glyph up, reads it
into a table, collects its fills into a palette and draws from the table. This file shows that both
ways lead to the same text, and that a glyph that cannot be read stops both of them with the same
fault, which the document reports together with the identifier.
-/

namespace TikzGlyph

/-- A document that shows one glyph where it is. -/
def DocumentSpec.single (id : String) : DocumentSpec := ⟨[], [], [], [⟨id, .identity⟩]⟩

namespace DocumentPlan

/-- The plan of a document with one glyph. -/
def single (id : String) (groups : List Group) : DocumentPlan :=
  ⟨.single id, [(id, groups)], .ofGlyph groups⟩

theorem prepare_single (catalog : Catalog) (id : String) :
    prepare catalog (.single id) = (catalog.glyph id).map (single id) := by
  have collected : Collector.ofSpec (.single id) = .ok .empty := rfl
  have unknown : ([] : GlyphTable).lookup (Placement.mk id .identity).glyph = none := rfl
  simp only [prepare, run_planning_of_ok collected]
  change ((collectGlyphs catalog [] .empty [⟨id, .identity⟩]).run.run []).1.map _ = _
  cases read : catalog.glyph id with
  | error cause =>
      rw [run_collectGlyphs_of_error unknown read]
      rfl
  | ok groups =>
      rw [run_collectGlyphs_of_ok unknown read]
      rfl

theorem placementsText_single (id : String) (groups : List Group) :
    (single id groups).placementsText =
      (Tikz.place .identity groups (.ofGlyph groups)).mapError .render := by
  have found : (single id groups).glyph? (Placement.mk id .identity).glyph = some groups := by
    simp [single, glyph?]
  have drawn := place_eq_of_glyph? found
  simp only [placementsText, single, DocumentSpec.single, List.mapM_cons, List.mapM_nil] at drawn ⊢
  rw [drawn]
  cases Tikz.place .identity groups (.ofGlyph groups) with
  | error cause => rfl
  | ok block => simp [Except.map, bind, Except.bind, pure, Except.pure]

/-- The preview of a glyph that can be read is the text of its document. -/
theorem standalone_single {source : String} {groups : List Group}
    (read : parseGlyph source = .ok groups) (id : String) :
    (single id groups).standalone = preview source := by
  have parsed : parseSource source = .ok groups := by
    rw [parseSource, read]
    rfl
  rw [standalone, placementsText_single, preview, parsed]
  rfl

theorem glyph_of_stored {entries : MemoryCatalog} {id source : String}
    (stored : entries.get? id = some source) :
    entries.catalog.glyph id = readGlyph id source := by
  simp [Catalog.glyph, MemoryCatalog.catalog, stored, bind, Except.bind]

end DocumentPlan

open DocumentPlan

/-- A glyph has a preview exactly if it can be read. The preview is the text of the document that
shows the glyph alone, and the fault of a glyph that cannot be read is the fault of both. -/
theorem preview_eq_standalone {entries : MemoryCatalog} {id source : String}
    (stored : entries.get? id = some source) :
    (∀ text, preview source = .ok text ↔
        ∃ plan, prepare entries.catalog (.single id) = .ok plan ∧ plan.standalone = .ok text) ∧
      ((∃ text, preview source = .ok text) ↔ ∃ groups, parseGlyph source = .ok groups) ∧
      ∀ cause, parseGlyph source = .error cause →
        preview source = .error (.parse cause) ∧
          prepare entries.catalog (.single id) = .error (.glyph id cause) := by
  have planned : prepare entries.catalog (.single id) =
      (readGlyph id source).map (DocumentPlan.single id) := by
    rw [prepare_single, glyph_of_stored stored]
  cases read : parseGlyph source with
  | error cause =>
      have refused : preview source = .error (.parse cause) := by
        rw [preview, parseSource, read]
        rfl
      have unplanned : prepare entries.catalog (.single id) = .error (.glyph id cause) := by
        rw [planned, readGlyph, read]
        rfl
      simp [refused, unplanned]
  | ok groups =>
      have parsed : parseSource source = .ok groups := mapError_eq_ok_iff.mpr read
      rcases exists_preview_of_parseSource parsed with ⟨text, previewed⟩
      have made : prepare entries.catalog (.single id) = .ok (DocumentPlan.single id groups) := by
        rw [planned, readGlyph, read]
        rfl
      simp [made, standalone_single read, previewed]

/-- A stored sun is previewed as it is shown by its document; a broken one has no preview. -/
theorem preview_sun :
    (∃ plan text,
      prepare (MemoryCatalog.empty.add "sun" "<circle cx='1' cy='2' r='3' fill='#fc0'/>").catalog
          (.single "sun") = .ok plan ∧
        plan.standalone = .ok text ∧
        preview "<circle cx='1' cy='2' r='3' fill='#fc0'/>" = .ok text) ∧
      preview "<path/>" = .error (.parse (.missingAttribute "path" "d" ⟨1, 1⟩)) ∧
      prepare (MemoryCatalog.empty.add "sun" "<path/>").catalog (.single "sun") =
        .error (.glyph "sun" (.missingAttribute "path" "d" ⟨1, 1⟩)) := by
  constructor
  · have stored : (MemoryCatalog.empty.add "sun" "<circle cx='1' cy='2' r='3' fill='#fc0'/>").get?
        "sun" = some "<circle cx='1' cy='2' r='3' fill='#fc0'/>" := by
      decide +kernel
    have readable : failure? (parseGlyph "<circle cx='1' cy='2' r='3' fill='#fc0'/>") = none := by
      decide +kernel
    rcases (preview_eq_standalone stored).2.1.mpr (failure?_eq_none_iff.mp readable) with
      ⟨text, previewed⟩
    rcases ((preview_eq_standalone stored).1 text).mp previewed with ⟨plan, prepared, written⟩
    exact ⟨plan, text, prepared, written, previewed⟩
  · have stored : (MemoryCatalog.empty.add "sun" "<path/>").get? "sun" = some "<path/>" := by
      decide +kernel
    have unreadable : failure? (parseGlyph "<path/>") =
        some (.missingAttribute "path" "d" ⟨1, 1⟩) := by
      decide +kernel
    exact (preview_eq_standalone stored).2.2 _ (failure?_eq_some_iff.mp unreadable)

end TikzGlyph
