import TikzGlyph.Text.ByteLength

/-!
# Locations

A location is a line and a column, both counted from one. `Location.ofOffset` finds the location of
a byte offset from the text before it: its newlines count the lines, and the characters after the
last of them count the columns.
-/

namespace TikzGlyph

/-- The byte offset of the last newline of a text, searched for from its end. -/
def lastNewline? (text : List Char) : Option Nat :=
  match text.reverse.dropWhile fun character => character ≠ '\n' with
  | [] => none
  | _ :: earlier => some (byteLength earlier.reverse)

/-- What a text holds after its last newline: all of it if there is none. -/
def lastLine (text : List Char) : List Char :=
  match lastNewline? text with
  -- a newline takes one byte, so the text can always be cut after it
  | some newline => (dropBytes? (newline + 1) text).getD []
  | none => text

/-- A place in a source text, counted in lines and in characters of a line. -/
structure Location where
  line : Nat
  column : Nat
deriving DecidableEq, Repr

namespace Location

/-- The place of the first character. -/
def start : Location := ⟨1, 1⟩

/-- The place where a text ends. -/
def ofEnd (text : List Char) : Location :=
  ⟨text.count '\n' + 1, (lastLine text).length + 1⟩

/-- The place of a byte offset in a text. An offset inside a character or past the end counts as the
end of the text. -/
def ofOffset (text : List Char) (offset : Nat) : Location :=
  ofEnd ((takeBytes? offset text).getD text)

def text (location : Location) : String :=
  s!"line {location.line}, column {location.column}"

end Location

end TikzGlyph
