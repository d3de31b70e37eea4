import TikzGlyph.Catalog.Basic
import TikzGlyph.Files.Basic

/-!
# Catalogs in a directory

In a directory, the source of a glyph is the text of the file named by its identifier with the
ending `.svg`. An identifier that is empty or has a slash or a backslash is no file name and is
rejected, so no look-up leaves the directory.
-/

namespace TikzGlyph

namespace DirectoryCatalog

/-- The name of the file of a glyph, unless the identifier is rejected. -/
def fileName? (id : String) : Option String :=
  if id = "" ∨ '/' ∈ id.toList ∨ '\\' ∈ id.toList then none else some (id ++ ".svg")

def join (base name : String) : String :=
  if base.toList.getLast?.all (· = '/') then base ++ name else base ++ "/" ++ name

/-- The path of the file of a glyph, unless the identifier is rejected. -/
def path? (base id : String) : Option String :=
  (fileName? id).map (join base)

/-- The source of a glyph. A file that is not there makes the glyph unknown; every other fault is a
failure to load it. -/
def source (files : Files) (base id : String) : Except CatalogError String :=
  match path? base id with
  | none => .error (.unknownGlyph id)
  | some path =>
      match files.readText path with
      | .ok text => .ok text
      | .error .notFound => .error (.unknownGlyph id)
      | .error cause => .error (.loadFailed id cause.message)

/-- Whether there is a regular file for a glyph. -/
def contains (files : Files) (base id : String) : Bool :=
  match path? base id with
  | none => false
  | some path => files.isFile path

def sourceLog (files : Files) (base id : String) : List LogRecord :=
  match path? base id with
  | none => [⟨.warn, s!"Rejected glyph id '{id}' (path traversal blocked)"⟩]
  | some path =>
      match files.readText path with
      | .ok _ => [⟨.debug, s!"Loaded glyph '{id}' from {path}"⟩]
      | .error _ => []

def catalog (files : Files) (base : String) : Catalog where
  name := "FilesystemGlyphCatalog"
  source := source files base
  contains := contains files base
  sourceLog := sourceLog files base

end DirectoryCatalog

end TikzGlyph
