import TikzGlyph.Drawing.Canvas

/-!
# Recording canvas

A recorder keeps the calls it receives. It may be told to fail at one call, which it does not
record.
-/

namespace TikzGlyph

/-- The calls received so far, and how many more succeed if the recorder is to fail. -/
structure Recorder where
  calls : List Call
  failAfter : Option Nat
deriving DecidableEq, Repr

namespace Recorder

/-- A recorder without calls that fails at the call with a number, counted from zero. -/
def start (failAt : Option Nat) : Recorder := ⟨[], failAt⟩

def receive (call : Call) (recorder : Recorder) : Except RenderError Unit × Recorder :=
  match recorder.failAfter with
  | some 0 => (.error .format, recorder)
  | some (remaining + 1) => (.ok (), ⟨recorder.calls ++ [call], some remaining⟩)
  | none => (.ok (), ⟨recorder.calls ++ [call], none⟩)

instance : Canvas Recorder where
  draw call := ExceptT.mk (receive call)

/-- The calls of a drawing and how it ended. -/
def record (drawing : Drawing Recorder Unit) (failAt : Option Nat) :
    List Call × Except RenderError Unit :=
  let (result, recorder) := (ExceptT.run drawing).run (.start failAt)
  (recorder.calls, result)

end Recorder

end TikzGlyph
