import TikzGlyph.Log

/-!
# Catalogs

A catalog knows the sources of glyphs by their identifiers. Catalogs differ in where the sources are
kept; a document is compiled in the same way from each of them.
-/

namespace TikzGlyph

/-- Why a catalog has no source for an identifier. -/
inductive CatalogError
  | unknownGlyph (id : String)
  | loadFailed (id message : String)
deriving DecidableEq, Repr

def CatalogError.message : CatalogError → String
  | .unknownGlyph id => s!"Missing SVG for glyph: {id}"
  | .loadFailed id message => s!"Failed to load glyph '{id}': {message}"

/-- A collection of glyph sources. -/
structure Catalog where
  /-- The kind of the catalog, for log records. -/
  name : String
  source : String → Except CatalogError String
  /-- Whether the catalog has an entry for an identifier. -/
  contains : String → Bool
  /-- The records of looking up a source. -/
  sourceLog : String → List LogRecord

/-- A glyph wrapped in a whole document. -/
def standaloneSvg (fragment : String) : String :=
  "<svg xmlns=\"http://www.w3.org/2000/svg\" viewBox=\"0 0 36 36\">" ++ fragment ++ "</svg>"

end TikzGlyph
