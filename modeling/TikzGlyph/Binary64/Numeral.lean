import TikzGlyph.Binary64.Rounding

/-!
# Decimal numerals

A numeral is an optional sign, digits with at most one decimal point and at least one digit, and an
optional power of ten. `Binary64.ofText?` reads a numeral as the nearest number of the binary
format; it also reads the words for infinity and for the value that is not a number, in any case of
letters.
-/

namespace TikzGlyph

/-- A decimal numeral: `digits * 10 ^ exponent` under a sign. -/
structure Numeral where
  negative : Bool
  digits : Nat
  exponent : Int
deriving DecidableEq, Repr

namespace Numeral

def ofDigits (digits : List Char) : Nat :=
  digits.foldl (fun value digit => 10 * value + (digit.toNat - '0'.toNat)) 0

/-- Splits off the digits at the start of a text. -/
def spanDigits (text : List Char) : List Char × List Char :=
  (text.takeWhile Char.isDigit, text.dropWhile Char.isDigit)

/-- Splits off an optional sign; the flag is true for a minus. -/
def spanSign : List Char → Bool × List Char
  | '-' :: rest => (true, rest)
  | '+' :: rest => (false, rest)
  | rest => (false, rest)

/-- Reads the power of ten that ends a numeral, or nothing at the end of the text. -/
def readExponent? : List Char → Option Int
  | [] => some 0
  | mark :: rest =>
      if mark = 'e' ∨ mark = 'E' then
        let (negative, digits) := spanSign rest
        if digits ≠ [] ∧ digits.all Char.isDigit then
          some (if negative then -(ofDigits digits : Int) else ofDigits digits)
        else none
      else none

/-- Reads the digits, the decimal point and the power of ten of a numeral. -/
def readUnsigned? (negative : Bool) (text : List Char) : Option Numeral :=
  let (whole, afterWhole) := spanDigits text
  let (fraction, rest) :=
    match afterWhole with
    | '.' :: afterPoint => spanDigits afterPoint
    | _ => ([], afterWhole)
  if whole = [] ∧ fraction = [] then none
  else
    (readExponent? rest).map fun exponent =>
      ⟨negative, ofDigits (whole ++ fraction), exponent - fraction.length⟩

/-- Reads a numeral that takes up a whole text. -/
def read? (text : List Char) : Option Numeral :=
  let (negative, rest) := spanSign text
  readUnsigned? negative rest

/-- How many decimal digits a positive number has; zero has one. -/
def digitCount (value : Nat) : Nat :=
  (Nat.toDigits 10 value).length

/-- The number nearest to a numeral. A numeral of more than 310 whole digits is past every finite
number, and one that starts more than 330 places after the point is below every positive one, so
powers of ten outside these bounds are never formed. -/
def nearest (numeral : Numeral) : Binary64 :=
  let wholeDigits := (digitCount numeral.digits : Int) + numeral.exponent
  if numeral.digits = 0 ∨ wholeDigits < -330 then .zero numeral.negative
  else if 310 < wholeDigits then .infinite numeral.negative
  else .ofScientific numeral.negative numeral.digits numeral.exponent

end Numeral

namespace Binary64

/-- Reads a word for a value that has no digits, in lowercase. -/
def ofWord? (negative : Bool) (word : List Char) : Option Binary64 :=
  if word = ['n', 'a', 'n'] then some (.quietNaN negative)
  else if word = ['i', 'n', 'f'] ∨ word = ['i', 'n', 'f', 'i', 'n', 'i', 't', 'y'] then
    some (.infinite negative)
  else none

/-- Reads a number: a numeral or a word for a value without digits, with an optional sign. -/
def ofChars? (text : List Char) : Option Binary64 :=
  match Numeral.read? text with
  | some numeral => some numeral.nearest
  | none =>
      let (negative, word) := Numeral.spanSign text
      ofWord? negative (word.map Char.toLower)

def ofText? (text : String) : Option Binary64 :=
  ofChars? text.toList

end Binary64

end TikzGlyph
