/-!
# Digits

The values of decimal and hexadecimal digits. Hexadecimal digits may be letters of either case, and
digits of other scripts do not count.
-/

namespace TikzGlyph

def decimalValue? (character : Char) : Option (Fin 10) :=
  let code := character.toNat
  if '0'.toNat ≤ code ∧ code ≤ '9'.toNat then some (Fin.ofNat 10 (code - '0'.toNat)) else none

/-- The value of a hexadecimal digit in either case. -/
def hexValue? (character : Char) : Option (Fin 16) :=
  let code := character.toNat
  if '0'.toNat ≤ code ∧ code ≤ '9'.toNat then some (Fin.ofNat 16 (code - '0'.toNat))
  else if 'a'.toNat ≤ code ∧ code ≤ 'f'.toNat then some (Fin.ofNat 16 (code - 'a'.toNat + 10))
  else if 'A'.toNat ≤ code ∧ code ≤ 'F'.toNat then some (Fin.ofNat 16 (code - 'A'.toNat + 10))
  else none

/-- A hexadecimal digit in either case. -/
def isHexDigit (character : Char) : Bool := (hexValue? character).isSome

/-- The number that hexadecimal digits denote. -/
def hexNumber? (digits : List Char) : Option Nat :=
  (digits.mapM hexValue?).map fun values =>
    values.foldl (fun number value => 16 * number + value.val) 0

/-- The byte that a text denotes as a hexadecimal number. One plus sign may stand before the
digits. -/
def hexByte? (text : List Char) : Option UInt8 :=
  let digits :=
    match text with
    | '+' :: rest => rest
    | _ => text
  if digits = [] then none
  else
    (hexNumber? digits).bind fun number =>
      if number < UInt8.size then some (UInt8.ofNat number) else none

/-- The lowercase hexadecimal digit of a value. -/
def hexDigit (value : Fin 16) : Char :=
  Nat.digitChar value.val

def byteDigits (value : UInt8) : List Char :=
  [hexDigit (Fin.ofNat 16 (value.toNat / 16)), hexDigit (Fin.ofNat 16 value.toNat)]

end TikzGlyph
