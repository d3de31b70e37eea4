import TikzGlyph.Binary64.Layout

/-!
# Transforms

A transform places a glyph: it moves by `x` and `y` points, scales uniformly and rotates by degrees.
The vertical flip that turns the downward axis of a glyph upward belongs to every placement and not
to its transform.
-/

namespace TikzGlyph

/-- Where and how a glyph is placed. -/
structure Transform where
  x : Binary64
  y : Binary64
  scale : Binary64
  rotate : Binary64
deriving DecidableEq, Repr

namespace Transform

/-- The transform that changes nothing. -/
def identity : Transform := ⟨.zero false, .zero false, .one, .zero false⟩

instance : Inhabited Transform := ⟨identity⟩

def logText (transform : Transform) : String :=
  let field (number : Binary64) := number.text .log
  "Transform \x7b x: " ++ field transform.x ++ ", y: " ++ field transform.y ++ ", scale: "
    ++ field transform.scale ++ ", rotate: " ++ field transform.rotate ++ " \x7d"

end Transform

end TikzGlyph
