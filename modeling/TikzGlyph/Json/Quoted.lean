import TikzGlyph.Text.Digit

/-!
# JSON strings

A JSON string stands between double quotes. Quotes, backslashes and control characters in it are
escaped, and any character may be written by the codes of its UTF-16 units. `Json.quote` writes a
string, and `Json.StringReading` reads one character by character; codes that do not pair up to a
character make the text of a string unknown but not its extent.
-/

namespace TikzGlyph

namespace Json

/-- A character inside a written string. -/
def escapeCharacter (character : Char) : List Char :=
  if character = '\x22' then ['\\', '\x22']
  else if character = '\\' then ['\\', '\\']
  else if character = '\x08' then ['\\', 'b']
  else if character = '\x0c' then ['\\', 'f']
  else if character = '\n' then ['\\', 'n']
  else if character = '\r' then ['\\', 'r']
  else if character = '\t' then ['\\', 't']
  else if character.toNat < 0x20 then ['\\', 'u', '0', '0'] ++ byteDigits character.toUInt8
  else [character]

/-- A string as it is written. -/
def quote (text : String) : String :=
  String.ofList ('\x22' :: text.toList.flatMap escapeCharacter ++ ['\x22'])

/-- The character that a backslash and a letter stand for. -/
def escaped? : Char → Option Char
  | '\x22' => some '\x22'
  | '\\' => some '\\'
  | '/' => some '/'
  | 'b' => some '\x08'
  | 'f' => some '\x0c'
  | 'n' => some '\n'
  | 'r' => some '\r'
  | 't' => some '\t'
  | _ => none

/-- The UTF-16 unit that four hexadecimal digits denote. -/
def unit? (digits : List Char) : Option Nat :=
  (digits.mapM hexValue?).map fun values =>
    values.foldl (fun unit value => 16 * unit + value.val) 0

/-- A string of which a part has been read. -/
structure StringReading where
  /-- The characters so far, last one first, while all units pair up. -/
  found : Option (List Char)
  /-- A leading surrogate that waits for its trailing one. -/
  pending : Option Nat
deriving DecidableEq, Repr

namespace StringReading

def start : StringReading := ⟨some [], none⟩

/-- The reading of a string whose units do not pair up. -/
def unknown : StringReading := ⟨none, none⟩

def append (reading : StringReading) (character : Char) : StringReading :=
  match reading.pending with
  | some _ => unknown
  | none => ⟨reading.found.map (character :: ·), none⟩

/-- One more UTF-16 unit. -/
def appendUnit (reading : StringReading) (unit : Nat) : StringReading :=
  match reading.pending with
  | some leading =>
      if 0xDC00 ≤ unit ∧ unit ≤ 0xDFFF then
        let code := 0x10000 + 0x400 * (leading - 0xD800) + (unit - 0xDC00)
        ⟨reading.found.map (Char.ofNat code :: ·), none⟩
      else unknown
  | none =>
      if 0xD800 ≤ unit ∧ unit ≤ 0xDBFF then ⟨reading.found, some unit⟩
      else if 0xDC00 ≤ unit ∧ unit ≤ 0xDFFF then unknown
      else ⟨reading.found.map (Char.ofNat unit :: ·), none⟩

/-- The text of the string, if all units paired up. -/
def text? (reading : StringReading) : Option String :=
  match reading.pending with
  | some _ => none
  | none => reading.found.map fun found => String.ofList found.reverse

end StringReading

end Json

end TikzGlyph
