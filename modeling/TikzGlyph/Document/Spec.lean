import TikzGlyph.Transform

/-!
# Document specifications

A specification lists what a document draws: colours that are used directly, pairs of colours for
gradients, background colours, and placed glyphs.
-/

namespace TikzGlyph

/-- One glyph at one place. -/
structure Placement where
  glyph : String
  transform : Transform
deriving DecidableEq, Repr

/-- The bottom and the top colour of a gradient. -/
structure Gradient where
  bottom : String
  top : String
deriving DecidableEq, Repr

/-- What a document draws. -/
structure DocumentSpec where
  colors : List String
  gradients : List Gradient
  backgrounds : List String
  placements : List Placement
deriving DecidableEq, Repr

namespace DocumentSpec

def empty : DocumentSpec := ⟨[], [], [], []⟩

end DocumentSpec

end TikzGlyph
