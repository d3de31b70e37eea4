import TikzGlyph.Glyph.Builder

/-!
# Assembling a glyph tag by tag

A caller who hands over tags one at a time may go on after a tag that has a fault. The groups are
then a state that outlives the fault, in whatever form the tag has left it by then. Every handler
reads the attributes of its tag and changes the groups in one sequence of steps, and the first step
that fails ends the handler.
-/

namespace TikzGlyph

/-- An activity on the groups of a glyph: it may fail, and the groups survive a failure. -/
abbrev Assembling := ExceptT GlyphError (StateM (List Group))

namespace Assembling

/-- The groups at the start: one, without a fill. -/
def start : List Group := [.empty none]

/-- The groups with an element added to the last of them; without a group it has no place. -/
def addToLast (element : Element) : List Group → List Group
  | [] => []
  | [last] => [⟨last.fill, last.children ++ [element]⟩]
  | first :: second :: rest => first :: addToLast element (second :: rest)

/-- A result that does not depend on the groups. -/
def lift {value : Type} (result : Except GlyphError value) : Assembling value :=
  ExceptT.mk (pure result)

def addElement (element : Element) : Assembling Unit := modify (addToLast element)

def startGroup (fill : Option Color) : Assembling Unit := modify (· ++ [.empty fill])

def openTag (tag : Tag) (attributes : Attributes) (location : Location) : Assembling Unit := do
  match tag with
  | .group => startGroup (← lift (attributes.fill location))
  | .path =>
      let data ← lift (attributes.required "path" "d" location)
      addElement (.path data (← lift (attributes.fill location)))
  | .circle =>
      let centerX ← lift (attributes.number "circle" "cx" location)
      let centerY ← lift (attributes.number "circle" "cy" location)
      let radius ← lift (attributes.number "circle" "r" location)
      addElement (.circle centerX centerY radius (← lift (attributes.fill location)))
  | .ellipse =>
      let centerX ← lift (attributes.number "ellipse" "cx" location)
      let centerY ← lift (attributes.number "ellipse" "cy" location)
      let radiusX ← lift (attributes.number "ellipse" "rx" location)
      let radiusY ← lift (attributes.number "ellipse" "ry" location)
      addElement (.ellipse centerX centerY radiusX radiusY (← lift (attributes.fill location)))
  | .unrecognized _ => pure ()

def closeTag : Tag → Assembling Unit
  | .group => startGroup none
  | _ => pure ()

def handle : GlyphEvent → Assembling Unit
  | .opening tag attributes location => openTag tag attributes location
  | .closing tag _ => closeTag tag

/-- How an event is answered, and the groups after it. -/
def answer (event : GlyphEvent) (groups : List Group) : Except GlyphError Unit × List Group :=
  (handle event).run.run groups

end Assembling

end TikzGlyph
