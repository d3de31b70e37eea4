import TikzGlyph.Catalog.Basic
import TikzGlyph.Drawing.Canvas
import TikzGlyph.Files.Basic
import TikzGlyph.Glyph.Attributes
import TikzGlyph.Json.Token

/-!
# Errors of compiling

Everything that can stop a document or a preview, with the step in which it happened.
-/

namespace TikzGlyph

/-- Why compiling stopped. -/
inductive CompileError
  | parse (cause : GlyphError)
  | glyph (id : String) (cause : GlyphError)
  | colorFormat (cause : ColorFormatError)
  | catalog (cause : CatalogError)
  | palette (cause : PaletteError)
  | render (cause : RenderError)
  | file (cause : FileError)
  | json (problem : Json.Problem)
deriving DecidableEq, Repr

/-- What is wrong with a JSON text, in words. -/
def Json.Problem.message : Json.Problem → String
  | .malformed => "malformed text"
  | .mismatched => "unexpected value"
  | .unfinished => "unexpected end"

namespace CompileError

def message : CompileError → String
  | .parse cause => s!"Parsing failed: {cause.message}"
  | .glyph id cause => s!"Glyph '{id}' failed to parse: {cause.message}"
  | .colorFormat cause => s!"Invalid color: {cause.message}"
  | .catalog cause => s!"Glyph catalog error: {cause.message}"
  | .palette cause => s!"Palette error: {cause.message}"
  | .render cause => s!"Rendering failed: {cause.message}"
  | .file cause => s!"I/O error: {cause.message}"
  | .json problem => s!"JSON parsing error: {problem.message}"

/-- A colour was used that had not been collected. -/
def isUnregisteredColor : CompileError → Bool
  | .palette (.unregistered _) => true
  | .render (.palette (.unregistered _)) => true
  | _ => false

/-- A glyph is not in the catalog. -/
def isUnknownGlyph : CompileError → Bool
  | .catalog (.unknownGlyph _) => true
  | _ => false

end CompileError

end TikzGlyph
