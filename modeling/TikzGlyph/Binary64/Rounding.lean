import TikzGlyph.Binary64.Basic

/-!
# Rounding to the nearest number

A positive quotient of natural numbers is rounded to the number of the binary format that is nearest
to it, and to the one with an even significand when two are equally near. Whatever lies at or beyond
half a step past the largest finite number becomes infinite. Products and quotients of numbers are
formed exactly and then rounded once.
-/

namespace TikzGlyph

namespace Binary64

/-- The whole number nearest to a quotient; halves go to the even neighbour. -/
def nearestQuotient (numerator denominator : Nat) : Nat :=
  let quotient := numerator / denominator
  let remainder := numerator % denominator
  if denominator < 2 * remainder ∨ (denominator = 2 * remainder ∧ quotient % 2 = 1) then
    quotient + 1
  else quotient

/-- How many places below its leading binary digit a number of `wholeUnits` units has too many. -/
def excessPlaces (wholeUnits : Nat) : Nat :=
  if wholeUnits < 2 * fractionCount then 0 else Nat.log2 wholeUnits - 52

/-- The code of the magnitude nearest to `numerator / denominator` units. A significand that rounds
up to twice the fractions carries into the exponent field, since the fields are adjacent. -/
def nearestCode (numerator denominator : Nat) : Nat :=
  let place := excessPlaces (numerator / denominator)
  place * fractionCount + nearestQuotient numerator (denominator * Nat.pow 2 place)

/-- The number nearest to `numerator / denominator` units. -/
def ofUnits (negative : Bool) (numerator denominator : Nat) : Binary64 :=
  let code := nearestCode numerator denominator
  if bounded : code < magnitudeCount then .finite negative ⟨code, bounded⟩
  else .infinite negative

def ofQuotient (negative : Bool) (numerator denominator : Nat) : Binary64 :=
  ofUnits negative (numerator * unitsOfOne) denominator

def ofNat (negative : Bool) (value : Nat) : Binary64 :=
  ofQuotient negative value 1

/-- The number nearest to `digits * 10 ^ exponent`. -/
def ofScientific (negative : Bool) (digits : Nat) (exponent : Int) : Binary64 :=
  if 0 ≤ exponent then ofQuotient negative (digits * Nat.pow 10 exponent.toNat) 1
  else ofQuotient negative digits (Nat.pow 10 (-exponent).toNat)

/-- The rounded product of two finite magnitudes, under a given sign. -/
def product (negative : Bool) (left right : Nat) : Binary64 :=
  ofUnits negative (units left * units right) unitsOfOne

/-- The rounded quotient of two finite magnitudes, under a given sign. -/
def quotient (negative : Bool) (left right : Nat) : Binary64 :=
  ofUnits negative (units left * unitsOfOne) (units right)

/-- The product. A product of zero and an infinity is not a number, and what is not a number is
passed on. -/
def mul : Binary64 → Binary64 → Binary64
  | .finite leftNegative left, .finite rightNegative right =>
      product (leftNegative != rightNegative) left right
  | .finite leftNegative left, .infinite rightNegative =>
      if left.val = 0 then quietNaN false else .infinite (leftNegative != rightNegative)
  | .infinite leftNegative, .finite rightNegative right =>
      if right.val = 0 then quietNaN false else .infinite (leftNegative != rightNegative)
  | .infinite leftNegative, .infinite rightNegative => .infinite (leftNegative != rightNegative)
  | .nan negative payload, _ => .nan negative payload
  | _, .nan negative payload => .nan negative payload

/-- The quotient. A quotient of two zeros or two infinities is not a number, and what is not a
number is passed on. -/
def div : Binary64 → Binary64 → Binary64
  | .finite leftNegative left, .finite rightNegative right =>
      if right.val = 0 then
        if left.val = 0 then quietNaN false else .infinite (leftNegative != rightNegative)
      else quotient (leftNegative != rightNegative) left right
  | .finite leftNegative _, .infinite rightNegative => zero (leftNegative != rightNegative)
  | .infinite leftNegative, .finite rightNegative _ => .infinite (leftNegative != rightNegative)
  | .infinite _, .infinite _ => quietNaN false
  | .nan negative payload, _ => .nan negative payload
  | _, .nan negative payload => .nan negative payload

end Binary64

end TikzGlyph
