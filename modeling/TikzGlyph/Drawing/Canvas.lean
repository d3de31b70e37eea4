import TikzGlyph.Palette
import TikzGlyph.Transform

/-!
# Canvases

A drawing is a sequence of calls to a canvas: colour definitions, the opening and closing of scopes,
and filled shapes. Shapes refer to colours by their palette index only. A canvas has a state, and a
call may fail; the state reached by then is kept.
-/

namespace TikzGlyph

/-- A call to a canvas. -/
inductive Call
  | define (index : Nat) (color : Color)
  | beginGroup (fill : Option Nat)
  | beginPlacement (transform : Transform)
  | endScope
  | circle (centerX centerY radius : Binary64) (fill : Option Nat)
  | ellipse (centerX centerY radiusX radiusY : Binary64) (fill : Option Nat)
  | path (data : String) (fill : Option Nat)
deriving DecidableEq, Repr

/-- Why a drawing stops. -/
inductive RenderError
  | palette (cause : PaletteError)
  /-- The canvas could not write a call. -/
  | format
  /-- A scope is closed that is not open, or left open at the end. -/
  | unbalancedScope
deriving DecidableEq, Repr

def RenderError.message : RenderError → String
  | .palette cause => s!"Palette error: {cause.message}"
  | .format => "Formatting error: an error occurred when formatting an argument"
  | .unbalancedScope => "Unbalanced scope: end_scope without a matching begin_scope"

/-- An activity on a canvas: it may fail, and the state of the canvas survives a failure. -/
abbrev Drawing (state : Type) := ExceptT RenderError (StateM state)

/-- A canvas is a state with the effect of every call on it. -/
class Canvas (state : Type) where
  draw : Call → Drawing state Unit

end TikzGlyph
