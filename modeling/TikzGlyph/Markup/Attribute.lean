import TikzGlyph.Markup.Entity
import TikzGlyph.Text.Blank

/-!
# Attribute lists

After its name, a tag holds attributes `key="value"` with either kind of quote. Space is allowed
around the equals sign and is not needed between two attributes. A key may occur once. The reader
goes over the characters of the tag once and unescapes each value at its closing quote, so the first
fault from left to right is the one reported.
-/

namespace TikzGlyph

namespace Markup

/-- An attribute as written, with its value unescaped. -/
structure Attribute where
  key : List Char
  value : List Char
deriving DecidableEq, Repr

/-- Where in an attribute list the reader stands. -/
inductive AttributePlace
  | between
  /-- Inside a key that starts at a position; its characters come last one first. -/
  | key (position : Nat) (reversed : List Char)
  /-- After a key and some space, before the equals sign. -/
  | afterKey (position : Nat) (key : List Char)
  | afterEquals (key : List Char)
  /-- Inside a value; its characters come last one first. -/
  | value (key : List Char) (quote : Char) (reversed : List Char)

/-- An attribute list of which a part has been read. -/
structure AttributeReading where
  /-- How many bytes of the tag's content have been read. -/
  position : Nat
  place : AttributePlace
  /-- The keys so far with the positions where they start. -/
  keys : List (List Char × Nat)
  /-- The complete attributes, last one first. -/
  found : List Attribute

namespace AttributeReading

/-- Begins with the content of a tag from a position on. -/
def start (position : Nat) : AttributeReading := ⟨position, .between, [], []⟩

/-- The equals sign after a key: the key must be new. -/
def closeKey (reading : AttributeReading) (position : Nat) (key : List Char) :
    Except Error AttributeReading :=
  match reading.keys.lookup key with
  | some previous => .error (.attributeList (.duplicate position previous))
  | none =>
      .ok { reading with place := .afterEquals key, keys := reading.keys ++ [(key, position)] }

/-- The closing quote after a value: the value is unescaped. -/
def closeValue (reading : AttributeReading) (key value : List Char) :
    Except Error AttributeReading :=
  match unescape value with
  | .error cause => .error (.entity cause)
  | .ok text => .ok { reading with place := .between, found := ⟨key, text⟩ :: reading.found }

/-- What a character means at the reader's place. -/
def accept (reading : AttributeReading) (character : Char) : Except Error AttributeReading :=
  match reading.place with
  | .between =>
      if isSpace character then .ok reading
      else .ok { reading with place := .key reading.position [character] }
  | .key position reversed =>
      if character = '=' then reading.closeKey position reversed.reverse
      else if isSpace character then
        .ok { reading with place := .afterKey position reversed.reverse }
      else .ok { reading with place := .key position (character :: reversed) }
  | .afterKey position key =>
      if isSpace character then .ok reading
      else if character = '=' then reading.closeKey position key
      else .error (.attributeList (.expectedEquals reading.position))
  | .afterEquals key =>
      if isSpace character then .ok reading
      else if character = '\x22' ∨ character = '\x27' then
        .ok { reading with place := .value key character [] }
      else .error (.attributeList (.unquotedValue reading.position))
  | .value key quote reversed =>
      if character = quote then reading.closeValue key reversed.reverse
      else .ok { reading with place := .value key quote (character :: reversed) }

def step (reading : AttributeReading) (character : Char) : Except Error AttributeReading :=
  (reading.accept character).map fun next =>
    { next with position := reading.position + character.utf8Size }

def finish (reading : AttributeReading) : Except Error (List Attribute) :=
  match reading.place with
  | .between => .ok reading.found.reverse
  | .key _ _ => .error (.attributeList (.expectedEquals reading.position))
  | .afterKey _ _ => .error (.attributeList (.expectedEquals reading.position))
  | .afterEquals _ => .error (.attributeList (.expectedValue reading.position))
  | .value _ quote _ => .error (.attributeList (.quoteNotClosed reading.position quote))

end AttributeReading

/-- Reads the attributes of a tag from the part of its content that starts at a position. -/
def readAttributes (position : Nat) (text : List Char) : Except Error (List Attribute) :=
  (text.foldlM AttributeReading.step (.start position)).bind AttributeReading.finish

end Markup

end TikzGlyph
