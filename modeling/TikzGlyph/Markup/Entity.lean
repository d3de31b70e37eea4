import TikzGlyph.Markup.Error
import TikzGlyph.Text.ByteLength
import TikzGlyph.Text.Digit

/-!
# Entities

In an attribute value, `&` starts an entity that ends at the next `;`: one of five names, or `#` and
the code of a character. `Markup.unescape` replaces every entity of a value by its character and
keeps all other characters.
-/

namespace TikzGlyph

namespace Markup

/-- The characters that have a name. -/
def namedCharacter? : List Char → Option Char
  | ['l', 't'] => some '<'
  | ['g', 't'] => some '>'
  | ['a', 'm', 'p'] => some '&'
  | ['a', 'p', 'o', 's'] => some '\x27'
  | ['q', 'u', 'o', 't'] => some '\x22'
  | _ => none

/-- The value of a digit of a character's code. -/
def digitValue? (hexadecimal : Bool) (character : Char) : Option Nat :=
  if hexadecimal then (hexValue? character).map Fin.val
  else (decimalValue? character).map Fin.val

/-- One more digit of a character's code, which has to stay below `2 ^ 32`. -/
def appendDigit (hexadecimal : Bool) (code : Nat) (digit : Char) : Except ReferenceError Nat :=
  match digitValue? hexadecimal digit with
  | none => .error .invalidDigit
  | some value =>
      let next := code * (if hexadecimal then 16 else 10) + value
      if next < UInt32.size then .ok next else .error .tooLarge

/-- Reads the digits of a character's code. -/
def readCode (hexadecimal : Bool) : List Char → Except ReferenceError Nat
  | [] => .error .noDigits
  | digit :: rest =>
      if digit = '+' ∨ digit = '-' then .error .unexpectedSign
      else (digit :: rest).foldlM (appendDigit hexadecimal) 0

def characterOfCode (code : Nat) : Except ReferenceError Char :=
  if code = 0 then .error .nullCharacter
  else if code.isValidChar then .ok (Char.ofNat code)
  else .error (.notCodePoint code)

/-- The character that an entity stands for. The text of the entity lies between `first` and `last`,
where its `;` stands. -/
def entityCharacter (first last : Nat) : List Char → Except EntityError Char
  | '#' :: 'x' :: digits =>
      ((readCode true digits).bind characterOfCode).mapError .reference
  | '#' :: digits => ((readCode false digits).bind characterOfCode).mapError .reference
  | name =>
      match namedCharacter? name with
      | some character => .ok character
      | none => .error (.unknown first last (String.ofList name))

/-- A value of which a part has been unescaped. -/
structure Unescaping where
  /-- How many bytes have been read. -/
  position : Nat
  /-- The start of the entity being read, and its characters so far, last one first. -/
  pending : Option (Nat × List Char)
  /-- The characters found so far, last one first. -/
  found : List Char

namespace Unescaping

def start : Unescaping := ⟨0, none, []⟩

/-- Reads one more character of a value of `length` bytes. -/
def step (length : Nat) (state : Unescaping) (character : Char) :
    Except EntityError Unescaping :=
  let position := state.position + character.utf8Size
  match state.pending with
  | none =>
      if character = '&' then .ok ⟨position, some (state.position, []), state.found⟩
      else .ok ⟨position, none, character :: state.found⟩
  | some (first, name) =>
      if character = ';' then
        (entityCharacter (first + 1) state.position name.reverse).map fun denoted =>
          ⟨position, none, denoted :: state.found⟩
      else if character = '&' then .error (.notClosed first length)
      else .ok ⟨position, some (first, character :: name), state.found⟩

/-- Ends a value of `length` bytes. -/
def finish (length : Nat) (state : Unescaping) : Except EntityError (List Char) :=
  match state.pending with
  | none => .ok state.found.reverse
  | some (first, _) => .error (.notClosed first length)

end Unescaping

/-- Replaces the entities of an attribute value by their characters. -/
def unescape (value : List Char) : Except EntityError (List Char) :=
  let length := byteLength value
  (value.foldlM (Unescaping.step length) .start).bind (Unescaping.finish length)

end Markup

end TikzGlyph
