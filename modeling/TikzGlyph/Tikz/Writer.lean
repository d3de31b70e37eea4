import TikzGlyph.Drawing.Emit
import TikzGlyph.Tikz.Directive

/-!
# Writing directives

A writer is a canvas that writes one directive per line and counts the open scopes. Closing a scope
that is not open fails and writes nothing. `Writer.finish` gives the text if all scopes are closed.
-/

namespace TikzGlyph

namespace Tikz

/-- The text written so far and the number of open scopes. -/
structure Writer where
  text : String
  depth : Nat
deriving DecidableEq, Repr

namespace Writer

def empty : Writer := ⟨"", 0⟩

/-- A text with one more line. -/
def appendLine (text line : String) : String :=
  if text = "" then line else text ++ "\n" ++ line

/-- The number of open scopes after a call, unless the call closes a scope and none is open. -/
def depthAfter? (depth : Nat) : Call → Option Nat
  | .beginGroup _ => some (depth + 1)
  | .beginPlacement _ => some (depth + 1)
  | .endScope => if depth = 0 then none else some (depth - 1)
  | _ => some depth

def write (call : Call) (writer : Writer) : Except RenderError Unit × Writer :=
  match depthAfter? writer.depth call with
  | none => (.error .unbalancedScope, writer)
  | some depth => (.ok (), ⟨appendLine writer.text (directive call), depth⟩)

instance : Canvas Writer where
  draw call := ExceptT.mk (write call)

/-- The text, if no scope is open. -/
def finish (writer : Writer) : Except RenderError String :=
  if writer.depth = 0 then .ok writer.text else .error .unbalancedScope

/-- The text of a drawing on an empty writer. -/
def run (drawing : Drawing Writer Unit) : Except RenderError String :=
  match (ExceptT.run drawing).run empty with
  | (.error cause, _) => .error cause
  | (.ok (), writer) => writer.finish

end Writer

def emit (element : Element) (palette : Palette) : Except RenderError String :=
  Writer.run (Drawing.element palette element)

def place (transform : Transform) (glyph : List Group) (palette : Palette) :
    Except RenderError String :=
  Writer.run (Drawing.place palette transform glyph)

/-- The definitions of the colours of a palette. -/
def paletteText (palette : Palette) : Except RenderError String :=
  Writer.run (Drawing.palette palette)

/-- A document that shows a body in one picture, with a palette in its preamble. -/
def standaloneDocument (palette body : String) : String :=
  let line (text : String) := if text = "" then "" else text ++ "\n"
  "\\documentclass\x7bstandalone\x7d\n\\usepackage\x7btikz\x7d\n\\usepackage[HTML]\x7bxcolor\x7d\n"
    ++ "\\usetikzlibrary\x7bsvg.path\x7d\n" ++ line palette
    ++ "\\begin\x7bdocument\x7d\n\\begin\x7btikzpicture\x7d\n" ++ line body
    ++ "\\end\x7btikzpicture\x7d\n\\end\x7bdocument\x7d\n"

end Tikz

end TikzGlyph
