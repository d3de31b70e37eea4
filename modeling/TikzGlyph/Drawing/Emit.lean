import TikzGlyph.Drawing.Canvas
import TikzGlyph.Glyph.Element

/-!
# Drawing glyphs on a canvas

Every element becomes calls to a canvas, its fill replaced by the index in a palette. A fill that is
absent stays absent, and one that the palette lacks stops the drawing. A group becomes a scope
around the calls of its elements, and a placed glyph a scope around its groups.
-/

namespace TikzGlyph

/-- The index of a fill, if there is a fill. -/
def Palette.resolve (palette : Palette) : Option Color → Except RenderError (Option Nat)
  | none => .ok none
  | some color => ((palette.index color).map some).mapError .palette

namespace Drawing

variable {state : Type}

/-- A result that does not depend on the canvas. -/
def lift {value : Type} (result : Except RenderError value) : Drawing state value :=
  ExceptT.mk (pure result)

variable [Canvas state]

def call (call : Call) : Drawing state Unit := Canvas.draw call

mutual

def element (palette : Palette) : Element → Drawing state Unit
  | .path data fill => do
      call (.path data (← lift (palette.resolve fill)))
  | .circle centerX centerY radius fill => do
      call (.circle centerX centerY radius (← lift (palette.resolve fill)))
  | .ellipse centerX centerY radiusX radiusY fill => do
      call (.ellipse centerX centerY radiusX radiusY (← lift (palette.resolve fill)))
  | .group fill children => do
      call (.beginGroup (← lift (palette.resolve fill)))
      elements palette children
      call .endScope

def elements (palette : Palette) : List Element → Drawing state Unit
  | [] => pure ()
  | first :: rest => do
      element palette first
      elements palette rest

end

def groups (palette : Palette) : List Group → Drawing state Unit
  | [] => pure ()
  | first :: rest => do
      element palette first.element
      groups palette rest

/-- Draws a glyph inside a placement scope. -/
def place (palette : Palette) (transform : Transform) (glyph : List Group) :
    Drawing state Unit := do
  call (.beginPlacement transform)
  groups palette glyph
  call .endScope

/-- Defines colours with their indices. -/
def definitions : List (Nat × Color) → Drawing state Unit
  | [] => pure ()
  | (index, color) :: rest => do
      call (.define index color)
      definitions rest

/-- Defines every colour of a palette, in the order of the indices. -/
def palette (palette : Palette) : Drawing state Unit := definitions palette.entries

end Drawing

def placeLog (transform : Transform) (glyph : List Group) : List LogRecord :=
  [⟨.trace, s!"Placing {glyph.length} groups at {transform.logText}"⟩]

end TikzGlyph
