import TikzGlyph.Binary64.Basic
import TikzGlyph.Color

/-!
# Glyph elements

A glyph is an ordered list of groups, and a group is an optional fill with an ordered list of
elements. The fill of an element is its own: a group does not pass its fill on, since a drawing
scope does that. `Element.fills` walks over all fills in drawing order and keeps the absent ones.
-/

namespace TikzGlyph

/-- A drawable element. Path data is kept as written. -/
inductive Element
  | path (data : String) (fill : Option Color)
  | circle (centerX centerY radius : Binary64) (fill : Option Color)
  | ellipse (centerX centerY radiusX radiusY : Binary64) (fill : Option Color)
  | group (fill : Option Color) (children : List Element)
deriving Repr

/-- An ordered run of elements with an optional fill of its own. -/
structure Group where
  fill : Option Color
  children : List Element
deriving Repr

namespace Element

/-- The fill of the element itself. -/
def fill : Element → Option Color
  | .path _ fill => fill
  | .circle _ _ _ fill => fill
  | .ellipse _ _ _ _ fill => fill
  | .group fill _ => fill

mutual

/-- All fills of an element in drawing order, its own first. -/
def fills : Element → List (Option Color)
  | .path _ fill => [fill]
  | .circle _ _ _ fill => [fill]
  | .ellipse _ _ _ _ fill => [fill]
  | .group fill children => fill :: fillsOfAll children

/-- All fills of a list of elements in drawing order. -/
def fillsOfAll : List Element → List (Option Color)
  | [] => []
  | element :: rest => element.fills ++ fillsOfAll rest

end

end Element

namespace Group

def empty (fill : Option Color) : Group := ⟨fill, []⟩

def element (group : Group) : Element := .group group.fill group.children

/-- All fills of a group in drawing order, its own first. -/
def fills (group : Group) : List (Option Color) := group.element.fills

end Group

/-- All fills of a glyph in drawing order. -/
def glyphFills (groups : List Group) : List (Option Color) :=
  groups.flatMap Group.fills

end TikzGlyph
