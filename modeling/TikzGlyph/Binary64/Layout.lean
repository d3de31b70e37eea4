import TikzGlyph.Binary64.Shortest

/-!
# Layouts of numbers

A layout turns the shortest digits of a number into text. Three layouts are in use: the one of
drawing directives, the one of log records and the one of JSON texts. They differ only in the fields
of `Binary64.Layout`.
-/

namespace TikzGlyph

namespace Binary64

/-- How numbers are written. -/
structure Layout where
  /-- Whether digits with the decimal point at a position are written without a power of ten. The
  position counts the digits before the point, and zeros after it negatively. -/
  positional : Int → Bool
  /-- What follows the digits of a whole number that is written without a power of ten. -/
  wholeEnd : List Char
  /-- The sign of a power of ten that is not negative. -/
  powerSign : List Char
  /-- Which of two equally near digit strings is written. -/
  tie : Tie
  /-- The texts of the value that is not a number and of the infinite values. -/
  nanText : List Char
  infinityText : Bool → List Char

namespace Layout

/-- Digits with a decimal point in their midst, or zeros up to the decimal point. -/
def positionalText (layout : Layout) (digits : List Char) (point : Int) : List Char :=
  if point ≤ 0 then ['0', '.'] ++ List.replicate (-point).toNat '0' ++ digits
  else if digits.length ≤ point.toNat then
    digits ++ List.replicate (point.toNat - digits.length) '0' ++ layout.wholeEnd
  else digits.take point.toNat ++ '.' :: digits.drop point.toNat

/-- One digit, the other digits after a point, and a power of ten. -/
def scientificText (layout : Layout) (digits : List Char) (point : Int) : List Char :=
  let power := point - 1
  let powerText :=
    if power < 0 then '-' :: Nat.toDigits 10 (-power).toNat
    else layout.powerSign ++ Nat.toDigits 10 power.toNat
  let rest := digits.drop 1
  digits.take 1 ++ (if rest = [] then [] else '.' :: rest) ++ 'e' :: powerText

/-- A decimal number in this layout. -/
def decimalText (layout : Layout) (value : Decimal) : List Char :=
  let digits := Nat.toDigits 10 value.digits
  let point := (digits.length : Int) + value.exponent
  if layout.positional point then layout.positionalText digits point
  else layout.scientificText digits point

def chars (layout : Layout) : Binary64 → List Char
  | .finite negative magnitude =>
      (if negative then ['-'] else []) ++ layout.decimalText (shortest layout.tie magnitude)
  | .infinite negative => layout.infinityText negative
  | .nan _ _ => layout.nanText

/-- The texts of infinite values outside JSON. -/
def infinityWord (negative : Bool) : List Char :=
  if negative then ['-', 'i', 'n', 'f'] else ['i', 'n', 'f']

/-- Drawing directives never use a power of ten, and whole numbers have no point. -/
def directive : Layout where
  positional _ := true
  wholeEnd := []
  powerSign := []
  tie := .upward
  nanText := ['N', 'a', 'N']
  infinityText := infinityWord

/-- Log records keep a point in whole numbers and use powers of ten below `1e-4` and from `1e16`. -/
def log : Layout where
  positional point := -4 < point && point ≤ 16
  wholeEnd := ['.', '0']
  powerSign := []
  tie := .upward
  nanText := ['N', 'a', 'N']
  infinityText := infinityWord

/-- JSON texts keep a point in whole numbers and use signed powers of ten below `1e-5` and from
`1e16`. A value that is not finite has no JSON number and is written as `null`. -/
def json : Layout where
  positional point := -5 < point && point ≤ 16
  wholeEnd := ['.', '0']
  powerSign := ['+']
  tie := .toEven
  nanText := ['n', 'u', 'l', 'l']
  infinityText _ := ['n', 'u', 'l', 'l']

end Layout

def text (layout : Layout) (value : Binary64) : String :=
  String.ofList (layout.chars value)

end Binary64

end TikzGlyph
