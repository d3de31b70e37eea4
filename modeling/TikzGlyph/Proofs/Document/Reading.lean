import TikzGlyph.Document.Plan
import TikzGlyph.Proofs.Palette.Collecting
import TikzGlyph.Proofs.Result

/-!
# Reading the glyphs of a document

A document reads its glyphs into a table, and a glyph that is in the table is not read again. The
table is sound when every entry is what reading the glyph afresh gives and the collector has all its
fills. Soundness is kept by every glyph that is read, and it makes the table invisible: the colours
come out as if every placement had read its glyph.
-/

namespace TikzGlyph

/-- A glyph of a catalog, looked up and read afresh. -/
def Catalog.glyph (catalog : Catalog) (id : String) : Except CompileError (List Group) := do
  let source ← (catalog.source id).mapError .catalog
  readGlyph id source

/-- Whether a glyph can be looked up and read. -/
def Catalog.hasGlyph (catalog : Catalog) (id : String) : Bool := (catalog.glyph id).isOk

/-- The identifiers up to the first without a glyph, this one included. -/
def Catalog.upToFailure (catalog : Catalog) : List String → List String
  | [] => []
  | id :: rest => if catalog.hasGlyph id then id :: catalog.upToFailure rest else [id]

theorem Catalog.upToFailure_isPrefix (catalog : Catalog) (ids : List String) :
    catalog.upToFailure ids <+: ids := by
  induction ids with
  | nil => exact List.prefix_rfl
  | cons id rest ih =>
      rw [upToFailure]
      split
      · exact (List.prefix_cons_inj id).mpr ih
      · exact ⟨rest, rfl⟩

/-- Feeds the fills of the glyph of one placement, read afresh. -/
def Collector.collectPlacement (catalog : Catalog) (collector : Collector)
    (placement : Placement) : Except CompileError Collector := do
  let groups ← catalog.glyph placement.glyph
  return collector.collect (glyphFills groups)

/-- A table of glyphs agrees with the catalog, and all its fills have been collected. -/
structure GlyphTable.Sound (catalog : Catalog) (table : GlyphTable) (collector : Collector) :
    Prop where
  fresh : ∀ id groups, table.lookup id = some groups → catalog.glyph id = .ok groups
  collected : ∀ id groups, table.lookup id = some groups →
    ∀ color, some color ∈ glyphFills groups → color ∈ collector.colors

/-! ## Tables of glyphs -/

namespace GlyphTable

variable {catalog : Catalog} {table : GlyphTable} {collector : Collector}

theorem lookup_append_singleton (table : GlyphTable) (added id : String) (groups : List Group) :
    (table ++ [(added, groups)]).lookup id =
      (table.lookup id).or (if id = added then some groups else none) := by
  rw [List.lookup_append]
  by_cases same : id = added
  · rw [if_pos same, List.lookup_cons, beq_iff_eq.mpr same]
  · rw [if_neg same, List.lookup_cons, beq_eq_false_iff_ne.mpr same, List.lookup_nil]

theorem sound_nil (catalog : Catalog) (collector : Collector) :
    Sound catalog [] collector := by
  constructor <;> intro id groups found <;> cases found

theorem Sound.read {id : String} {groups : List Group} (sound : table.Sound catalog collector)
    (read : catalog.glyph id = .ok groups) :
    Sound catalog (table ++ [(id, groups)]) (collector.collect (glyphFills groups)) := by
  constructor
  · intro other otherGroups found
    rw [lookup_append_singleton, Option.or_eq_some_iff] at found
    rcases found with old | ⟨_, new⟩
    · exact sound.fresh other otherGroups old
    · split at new
      · rename_i same
        cases new
        rw [same]
        exact read
      · cases new
  · intro other otherGroups found color colorMem
    rw [lookup_append_singleton, Option.or_eq_some_iff] at found
    rw [Collector.mem_collect]
    rcases found with old | ⟨_, new⟩
    · exact Or.inl (sound.collected other otherGroups old color colorMem)
    · split at new
      · cases new
        exact Or.inr colorMem
      · cases new

/-- The fills of a glyph in a sound table change nothing when they are fed again. -/
theorem Sound.collectPlacement_eq_self {placement : Placement} {groups : List Group}
    (sound : table.Sound catalog collector) (known : table.lookup placement.glyph = some groups) :
    collector.collectPlacement catalog placement = .ok collector := by
  rw [Collector.collectPlacement, sound.fresh _ _ known]
  change Except.ok (collector.collect (glyphFills groups)) = _
  rw [Collector.collect_eq_self (sound.collected _ _ known)]

/-- The identifiers without an entry, each once, in the order of their first occurrence. -/
def missing (table : GlyphTable) (ids : List String) : List String :=
  (ids.filter fun id => (table.lookup id).isNone).eraseDups

theorem missing_cons_of_known {id : String} {groups : List Group}
    (known : table.lookup id = some groups) (rest : List String) :
    table.missing (id :: rest) = table.missing rest := by
  rw [missing, List.filter_cons_of_neg (by simp [known]), missing]

/-- A missing identifier comes first, and it is not missing any more once it has an entry. -/
theorem missing_cons_of_unknown {id : String} (unknown : table.lookup id = none)
    (groups : List Group) (rest : List String) :
    table.missing (id :: rest) = id :: missing (table ++ [(id, groups)]) rest := by
  rw [missing, List.filter_cons_of_pos (by simp [unknown]), List.eraseDups_cons,
    List.filter_filter, missing]
  congr 3
  funext other
  rw [lookup_append_singleton]
  by_cases same : other = id <;> simp [same, unknown]

end GlyphTable

/-! ## Steps of reading -/

section Steps

variable {catalog : Catalog} {table : GlyphTable} {placement : Placement}

theorem collectGlyphs_of_known {groups : List Group}
    (known : table.lookup placement.glyph = some groups) (collector : Collector)
    (rest : List Placement) :
    collectGlyphs catalog table collector (placement :: rest) =
      collectGlyphs catalog table collector rest := by
  rw [collectGlyphs, known]

theorem collectGlyphs_of_unknown (unknown : table.lookup placement.glyph = none)
    (collector : Collector) (rest : List Placement) :
    collectGlyphs catalog table collector (placement :: rest) =
      (do
        let source ← Planning.lookUp catalog placement.glyph
        let groups ← Planning.lift (readGlyph placement.glyph source)
        collectGlyphs catalog (table ++ [(placement.glyph, groups)])
          (collector.collect (glyphFills groups)) rest) := by
  rw [collectGlyphs, unknown]

theorem run_lookUp_read {value : Type} (catalog : Catalog) (id : String)
    (next : List Group → Planning value) (lookups : List String) :
    (do
      let source ← Planning.lookUp catalog id
      let groups ← Planning.lift (readGlyph id source)
      next groups : Planning value).run.run lookups =
      match catalog.glyph id with
      | .ok groups => (next groups).run.run (lookups ++ [id])
      | .error cause => (.error cause, lookups ++ [id]) := by
  have lookedUp : (Planning.lookUp catalog id).run.run lookups =
      ((catalog.source id).mapError .catalog, lookups ++ [id]) := rfl
  rw [ExceptT.run_bind, StateT.run_bind, lookedUp, Catalog.glyph]
  cases catalog.source id with
  | error cause => rfl
  | ok source =>
      change (Planning.lift (readGlyph id source) >>= next).run.run (lookups ++ [id]) =
        match readGlyph id source with
        | .ok groups => (next groups).run.run (lookups ++ [id])
        | .error cause => (.error cause, lookups ++ [id])
      cases readGlyph id source <;> rfl

theorem run_collectGlyphs_of_error {cause : CompileError}
    (unknown : table.lookup placement.glyph = none)
    (failed : catalog.glyph placement.glyph = .error cause) (collector : Collector)
    (rest : List Placement) (lookups : List String) :
    (collectGlyphs catalog table collector (placement :: rest)).run.run lookups =
      (.error cause, lookups ++ [placement.glyph]) := by
  rw [collectGlyphs_of_unknown unknown, run_lookUp_read, failed]

theorem run_collectGlyphs_of_ok {groups : List Group}
    (unknown : table.lookup placement.glyph = none)
    (read : catalog.glyph placement.glyph = .ok groups) (collector : Collector)
    (rest : List Placement) (lookups : List String) :
    (collectGlyphs catalog table collector (placement :: rest)).run.run lookups =
      (collectGlyphs catalog (table ++ [(placement.glyph, groups)])
        (collector.collect (glyphFills groups)) rest).run.run (lookups ++ [placement.glyph]) := by
  rw [collectGlyphs_of_unknown unknown, run_lookUp_read, read]

end Steps

/-! ## Whole runs -/

section Runs

variable {catalog : Catalog} {table : GlyphTable} {collector : Collector}

/-- The look-ups are those of the missing identifiers, up to the first without a glyph. -/
theorem lookups_collectGlyphs (catalog : Catalog) (table : GlyphTable) (collector : Collector)
    (placements : List Placement) (lookups : List String) :
    ((collectGlyphs catalog table collector placements).run.run lookups).2 =
      lookups ++
        catalog.upToFailure (table.missing (placements.map Placement.glyph)) := by
  induction placements generalizing table collector lookups with
  | nil => exact (List.append_nil lookups).symm
  | cons placement rest ih =>
      rw [List.map_cons]
      cases known : table.lookup placement.glyph with
      | some groups =>
          rw [collectGlyphs_of_known known, GlyphTable.missing_cons_of_known known]
          exact ih table collector lookups
      | none =>
          cases read : catalog.glyph placement.glyph with
          | error cause =>
              have absent : catalog.hasGlyph placement.glyph = false := by
                rw [Catalog.hasGlyph, read]
                rfl
              rw [run_collectGlyphs_of_error known read,
                GlyphTable.missing_cons_of_unknown known [], Catalog.upToFailure,
                if_neg (by simp [absent])]
          | ok groups =>
              have present : catalog.hasGlyph placement.glyph = true := by
                rw [Catalog.hasGlyph, read]
                rfl
              rw [run_collectGlyphs_of_ok known read, ih,
                GlyphTable.missing_cons_of_unknown known groups, Catalog.upToFailure,
                if_pos present, List.append_assoc, List.singleton_append]

/-- With a sound table, the colours come out as if every placement had read its glyph. -/
theorem collector_collectGlyphs (sound : table.Sound catalog collector)
    (placements : List Placement) (lookups : List String) :
    ((collectGlyphs catalog table collector placements).run.run lookups).1.map Prod.snd =
      placements.foldlM (Collector.collectPlacement catalog) collector := by
  induction placements generalizing table collector lookups with
  | nil => rfl
  | cons placement rest ih =>
      rw [List.foldlM_cons]
      cases known : table.lookup placement.glyph with
      | some groups =>
          rw [collectGlyphs_of_known known, sound.collectPlacement_eq_self known]
          exact ih sound lookups
      | none =>
          cases read : catalog.glyph placement.glyph with
          | error cause =>
              rw [run_collectGlyphs_of_error known read, Collector.collectPlacement, read]
              rfl
          | ok groups =>
              rw [run_collectGlyphs_of_ok known read, Collector.collectPlacement, read]
              exact ih (sound.read read) (lookups ++ [placement.glyph])

/-- A finished table is sound, and its identifiers are the earlier ones and those of the
placements. -/
theorem sound_collectGlyphs {placements : List Placement} {lookups : List String}
    {finalTable : GlyphTable} {finalCollector : Collector}
    (sound : table.Sound catalog collector)
    (finished : ((collectGlyphs catalog table collector placements).run.run lookups).1 =
      .ok (finalTable, finalCollector)) :
    finalTable.Sound catalog finalCollector ∧
      collector.colors <+: finalCollector.colors ∧
      ∀ id, (finalTable.lookup id).isSome ↔
        (table.lookup id).isSome ∨ id ∈ placements.map Placement.glyph := by
  induction placements generalizing table collector lookups with
  | nil =>
      cases finished
      exact ⟨sound, List.prefix_rfl, fun id => by simp⟩
  | cons placement rest ih =>
      cases known : table.lookup placement.glyph with
      | some groups =>
          rw [collectGlyphs_of_known known] at finished
          rcases ih sound finished with ⟨finalSound, continued, identifiers⟩
          refine ⟨finalSound, continued, ?_⟩
          intro id
          rw [identifiers, List.map_cons, List.mem_cons]
          constructor
          · rintro (old | later)
            · exact Or.inl old
            · exact Or.inr (Or.inr later)
          · rintro (old | rfl | later)
            · exact Or.inl old
            · exact Or.inl (by rw [known]; rfl)
            · exact Or.inr later
      | none =>
          cases read : catalog.glyph placement.glyph with
          | error cause =>
              rw [run_collectGlyphs_of_error known read] at finished
              cases finished
          | ok groups =>
              rw [run_collectGlyphs_of_ok known read] at finished
              rcases ih (sound.read read) finished with ⟨finalSound, continued, identifiers⟩
              refine ⟨finalSound, ?_, ?_⟩
              · exact (Collector.isPrefix_collect collector (glyphFills groups)).trans continued
              · intro id
                rw [identifiers, List.map_cons, List.mem_cons, GlyphTable.lookup_append_singleton]
                by_cases same : id = placement.glyph <;> simp [same]

end Runs

end TikzGlyph
