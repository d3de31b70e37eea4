import TikzGlyph.Binary64.Numeral

/-!
# JSON numbers

A JSON number is read with a significand below `2 ^ 64`: digits that would make it larger are
dropped, and dropped digits before the decimal point raise the power of ten instead. The significand
is rounded to a binary number, and multiplying it by the power of ten or dividing it rounds once
more. A number that becomes infinite this way is out of range.
-/

namespace TikzGlyph

namespace Json

/-- A significand, its power of ten, and whether it takes no more digits. -/
structure Significand where
  digits : Nat
  exponent : Int
  full : Bool
deriving DecidableEq, Repr

namespace Significand

def zero : Significand := ⟨0, 0, false⟩

/-- The digits with one more digit, if it fits. -/
def grown? (significand : Significand) (digit : Char) : Option Nat :=
  let digits := 10 * significand.digits + (digit.toNat - '0'.toNat)
  if significand.full ∨ UInt64.size ≤ digits then none else some digits

/-- One more digit before the decimal point. -/
def appendWhole (significand : Significand) (digit : Char) : Significand :=
  match significand.grown? digit with
  | some digits => { significand with digits }
  | none => { significand with exponent := significand.exponent + 1, full := true }

/-- One more digit after the decimal point. -/
def appendFraction (significand : Significand) (digit : Char) : Significand :=
  match significand.grown? digit with
  | some digits => { significand with digits, exponent := significand.exponent - 1 }
  | none => { significand with full := true }

/-- The significand of the digits before and after the decimal point. A significand that became full
before the point takes digits again after it. -/
def ofDigits (whole fraction : List Char) : Significand :=
  let wholePart := whole.foldl appendWhole zero
  fraction.foldl appendFraction { wholePart with full := false }

end Significand

/-- The largest power of ten that is a finite number. -/
def largestPower : Nat := 308

/-- The number nearest to a power of ten. -/
def powerOfTen (exponent : Nat) : Binary64 := .ofNat false (Nat.pow 10 exponent)

/-- A number times `10 ^ exponent`, or nothing if the power is out of range and the number is not
zero. Division by a power of ten that is no finite number goes in steps. -/
def scale? (number : Binary64) (exponent : Int) : Option Binary64 :=
  if exponent.natAbs ≤ largestPower then
    if 0 ≤ exponent then some (number.mul (powerOfTen exponent.natAbs))
    else some (number.div (powerOfTen exponent.natAbs))
  else if number = .zero false then some number
  else if 0 ≤ exponent then none
  else scale? (number.div (powerOfTen largestPower)) (exponent + largestPower)
termination_by exponent.natAbs
decreasing_by simp only [largestPower] at *; omega

/-- Powers of ten are written with an exponent of at most this size. -/
def largestExponent : Nat := Nat.pow 2 31 - 1

/-- The number of a significand with a written exponent, if it is finite. An exponent that is too
large makes the number zero if it is negative or the significand is zero. -/
def number? (negative : Bool) (significand : Significand) (exponent : Int) : Option Binary64 :=
  let magnitude :=
    if largestExponent < exponent.natAbs then
      if exponent < 0 ∨ significand.digits = 0 then some (.zero false) else none
    else scale? (.ofNat false significand.digits) (significand.exponent + exponent)
  magnitude.bind fun number => (if negative then number.negate else number).finite?

end Json

end TikzGlyph
