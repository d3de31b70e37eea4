import TikzGlyph.Glyph.Attributes
import TikzGlyph.Glyph.Element

/-!
# Building a glyph from its tags

Glyphs are flat: every opening and every closing of a group starts a new group after all earlier
ones, and drawing tags add an element to the group that was started last. Nested groups therefore
become siblings. A builder always has a last group, so no element is ever lost.
-/

namespace TikzGlyph

/-- The tags that matter to a glyph, and all others under their names. -/
inductive Tag
  | group
  | path
  | circle
  | ellipse
  | unrecognized (name : String)
deriving DecidableEq, Repr

/-- The tag with a name; names are case-sensitive. -/
def Tag.ofName (name : String) : Tag :=
  if name = "g" then .group
  else if name = "path" then .path
  else if name = "circle" then .circle
  else if name = "ellipse" then .ellipse
  else .unrecognized name

/-- A tag of a glyph is opened or closed at a place. -/
inductive GlyphEvent
  | opening (tag : Tag) (attributes : Attributes) (location : Location)
  | closing (tag : Tag) (location : Location)
deriving DecidableEq, Repr

/-- What an accepted event adds to a glyph. -/
inductive Contribution
  | nothing
  | element (element : Element)
  | newGroup (fill : Option Color)
deriving Repr

namespace GlyphEvent

/-- What an opening tag adds to a glyph. The attributes of a tag are read in a fixed order, its
fill last, and the first fault among them is reported. -/
def opened (tag : Tag) (attributes : Attributes) (location : Location) :
    Except GlyphError Contribution := do
  match tag with
  | .group => return .newGroup (← attributes.fill location)
  | .path =>
      let data ← attributes.required "path" "d" location
      return .element (.path data (← attributes.fill location))
  | .circle =>
      let centerX ← attributes.number "circle" "cx" location
      let centerY ← attributes.number "circle" "cy" location
      let radius ← attributes.number "circle" "r" location
      return .element (.circle centerX centerY radius (← attributes.fill location))
  | .ellipse =>
      let centerX ← attributes.number "ellipse" "cx" location
      let centerY ← attributes.number "ellipse" "cy" location
      let radiusX ← attributes.number "ellipse" "rx" location
      let radiusY ← attributes.number "ellipse" "ry" location
      return .element (.ellipse centerX centerY radiusX radiusY (← attributes.fill location))
  | .unrecognized _ => return .nothing

def closed : Tag → Contribution
  | .group => .newGroup none
  | _ => .nothing

/-- What an event adds to a glyph. -/
def contribution : GlyphEvent → Except GlyphError Contribution
  | .opening tag attributes location => opened tag attributes location
  | .closing tag _ => .ok (closed tag)

end GlyphEvent

/-- A glyph under construction: its groups before the last one, newest first, and the last one. -/
structure Builder where
  earlier : List Group
  last : Group
deriving Repr

namespace Builder

/-- A builder starts with one group that has no fill. -/
def start : Builder := ⟨[], .empty none⟩

def groups (builder : Builder) : List Group :=
  (builder.last :: builder.earlier).reverse

/-- Adds what an event contributes. -/
def add (builder : Builder) : Contribution → Builder
  | .nothing => builder
  | .element element =>
      { builder with last := ⟨builder.last.fill, builder.last.children ++ [element]⟩ }
  | .newGroup fill => ⟨builder.last :: builder.earlier, .empty fill⟩

/-- Handles one event; a fault leaves no trace in the glyph. -/
def handle (builder : Builder) (event : GlyphEvent) : Except GlyphError Builder :=
  event.contribution.map builder.add

end Builder

end TikzGlyph
