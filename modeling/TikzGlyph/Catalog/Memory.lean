import TikzGlyph.Catalog.Basic

/-!
# Catalogs in memory

A list of identifiers with their sources, each identifier at most once.
-/

namespace TikzGlyph

/-- Identifiers with their sources. -/
structure MemoryCatalog where
  entries : List (String × String)
  nodup : (entries.map Prod.fst).Nodup

namespace MemoryCatalog

def empty : MemoryCatalog := ⟨[], List.nodup_nil⟩

/-- All entries but the one for an identifier. -/
def remove (catalog : MemoryCatalog) (id : String) : MemoryCatalog :=
  ⟨catalog.entries.filter fun entry => entry.1 ≠ id,
    catalog.nodup.sublist ((List.filter_sublist).map Prod.fst)⟩

/-- No entry for a removed identifier is left. -/
theorem notMem_remove (catalog : MemoryCatalog) (id : String) :
    id ∉ (catalog.remove id).entries.map Prod.fst := by
  simp [remove]

/-- Adds a source, in place of an earlier one for the same identifier. -/
def add (catalog : MemoryCatalog) (id source : String) : MemoryCatalog :=
  ⟨(catalog.remove id).entries ++ [(id, source)], by
    rw [List.map_append, List.nodup_append]
    refine ⟨(catalog.remove id).nodup, by simp, ?_⟩
    intro kept keptMem added addedMem equal
    have keptEq : kept = id := equal.trans (by simpa using addedMem)
    rw [keptEq] at keptMem
    exact catalog.notMem_remove id keptMem⟩

/-- The catalog of a list of entries, of which later ones replace earlier ones. -/
def ofEntries (entries : List (String × String)) : MemoryCatalog :=
  entries.foldl (fun catalog entry => catalog.add entry.1 entry.2) empty

def get? (catalog : MemoryCatalog) (id : String) : Option String :=
  catalog.entries.lookup id

def catalog (entries : MemoryCatalog) : Catalog where
  name := "InMemoryGlyphCatalog"
  source id :=
    match entries.get? id with
    | some source => .ok source
    | none => .error (.unknownGlyph id)
  contains id := (entries.get? id).isSome
  sourceLog _ := []

end MemoryCatalog

end TikzGlyph
