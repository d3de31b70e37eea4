/-!
# Blank characters

Characters that count as blank around a colour or a number are those with the Unicode property
`White_Space`. This file holds the table of that property and the removal of blank characters at
both ends of a text. Markup and JSON separate their parts with four of these characters only.
-/

namespace TikzGlyph

namespace Blank

/-- The code points with the property `White_Space`, as ranges with both ends included. -/
def ranges : List (Nat × Nat) :=
  [(0x09, 0x0D), (0x20, 0x20), (0x85, 0x85), (0xA0, 0xA0), (0x1680, 0x1680), (0x2000, 0x200A),
    (0x2028, 0x2029), (0x202F, 0x202F), (0x205F, 0x205F), (0x3000, 0x3000)]

/-- The table counts twenty-five code points. -/
example : (ranges.map fun range => range.2 + 1 - range.1).sum = 25 := by decide

end Blank

/-- A character is blank when it has the property `White_Space`. -/
def isBlank (character : Char) : Bool :=
  Blank.ranges.any fun range =>
    range.1 ≤ character.toNat && character.toNat ≤ range.2

/-- The characters that separate the parts of markup and of JSON. -/
def isSpace (character : Char) : Bool :=
  character == ' ' || character == '\t' || character == '\r' || character == '\n'

/-- A text without the blank characters at its start and at its end. -/
def trimBlank (text : List Char) : List Char :=
  ((text.dropWhile isBlank).reverse.dropWhile isBlank).reverse

example : trimBlank [' ', 'a', ' ', 'b', '\n'] = ['a', ' ', 'b'] := by decide

/-- The zero width space is not blank. -/
example : isBlank '\u200b' = false := by decide

end TikzGlyph
