import TikzGlyph.Document.Plan

/-!
# Previews

A preview is a document of its own that shows one glyph in place, with the palette of its fills.
-/

namespace TikzGlyph

/-- The palette of the fills of a glyph. -/
def Palette.ofGlyph (glyph : List Group) : Palette :=
  (Collector.empty.collect (glyphFills glyph)).freeze

/-- Reads a glyph that stands alone. -/
def parseSource (source : String) : Except CompileError (List Group) :=
  (parseGlyph source).mapError .parse

/-- The document that shows one glyph. -/
def preview (source : String) : Except CompileError String := do
  let groups ← parseSource source
  let palette := Palette.ofGlyph groups
  let definitions ← (Tikz.paletteText palette).mapError .render
  let body ← (Tikz.place .identity groups palette).mapError .render
  return Tikz.standaloneDocument definitions body

def previewLog (source : String) : List LogRecord :=
  parseGlyphLog source ++
    match parseGlyph source with
    | .error _ => []
    | .ok groups =>
        let palette := Palette.ofGlyph groups
        palette.freezeLog
          ++ [⟨.debug, s!"Preview: {groups.length} groups, {palette.colors.length} colors"⟩]
          ++ placeLog .identity groups

end TikzGlyph
