import TikzGlyph.Text.Blank
import TikzGlyph.Text.ByteLength
import TikzGlyph.Text.Digit

/-!
# Colours

A colour is an opaque triple of bytes, so two spellings of one colour (`#ABC`, `abc`, `#aabbcc`)
denote the same value. `Color.parseHex` reads the spellings, `Color.hex` writes the one normal
spelling, and `Color.parseFill` adds the convention of fill attributes: an absent or blank fill is
no colour.
-/

namespace TikzGlyph

/-- An opaque colour in red, green and blue. -/
structure Color where
  red : UInt8
  green : UInt8
  blue : UInt8
deriving DecidableEq, Repr, Inhabited

/-- Why a text is not a colour. -/
inductive ColorFormatError
  /-- All characters are hexadecimal digits, but there are `count` of them. -/
  | length (text : String) (count : Nat)
  /-- Some character is not a hexadecimal digit. -/
  | digit (text : String)
deriving DecidableEq, Repr

/-- The text shown for a rejected colour quotes it with its surrounding blanks. -/
def ColorFormatError.message : ColorFormatError → String
  | .length text count =>
      s!"Color '{text}' is not valid hex: expected 3 or 6 digits, got {count}"
  | .digit text => s!"Color '{text}' is not valid hex: non-hex digit"

namespace Color

/-- The digits of a colour's spelling: blanks around it and one leading `#` do not count. -/
def hexPart (text : List Char) : List Char :=
  match trimBlank text with
  | '#' :: digits => digits
  | digits => digits

/-- The six digits that spell a colour. In the short form each digit stands for two equal ones. -/
def sixDigits (text : String) : Except ColorFormatError (List Char) :=
  let digits := hexPart text.toList
  if digits.all isHexDigit then
    match byteLength digits with
    | 3 => .ok (digits.flatMap fun digit => [digit, digit])
    | 6 => .ok digits
    | count => .error (.length text count)
  else .error (.digit text)

/-- The component of a colour whose two digits start at a place. -/
def component (text : String) (digits : List Char) (start : Nat) :
    Except ColorFormatError UInt8 :=
  let pair := (dropBytes? start digits).bind (takeBytes? 2)
  match pair.bind hexByte? with
  | some value => .ok value
  | none => .error (.digit text)

/-- Reads `#RGB` or `#RRGGBB`, with or without the `#`. -/
def parseHex (text : String) : Except ColorFormatError Color := do
  let digits ← sixDigits text
  let red ← component text digits 0
  let green ← component text digits 2
  let blue ← component text digits 4
  return ⟨red, green, blue⟩

/-- Reads an optional fill: absent and blank both mean that there is none. -/
def parseFill : Option String → Except ColorFormatError (Option Color)
  | none => .ok none
  | some text =>
      if trimBlank text.toList = [] then .ok none
      else (parseHex text).map some

def hexDigits (color : Color) : List Char :=
  byteDigits color.red ++ byteDigits color.green ++ byteDigits color.blue

/-- The six lowercase hexadecimal digits, without a leading `#`. -/
def hex (color : Color) : String :=
  String.ofList color.hexDigits

/-- The normal spelling `#rrggbb`. -/
def text (color : Color) : String :=
  "#" ++ color.hex

end Color

end TikzGlyph
