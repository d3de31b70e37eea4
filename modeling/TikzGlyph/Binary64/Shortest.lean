import TikzGlyph.Binary64.Numeral

/-!
# Shortest decimal digits

Among the decimal numbers that round to a given binary number, `Binary64.shortest` picks one with
the fewest digits, and of these the nearest. It tries one, two, … seventeen digits: on the grid of
that many digits only the two neighbours of the number can be nearest, and the first grid on which a
neighbour rounds back to the number decides. Seventeen digits always suffice.
-/

namespace TikzGlyph

/-- A positive decimal number `digits * 10 ^ exponent`. -/
structure Decimal where
  digits : Nat
  exponent : Int
deriving DecidableEq, Repr

/-- Which neighbour is chosen when a number lies halfway between two. -/
inductive Tie
  | upward
  | toEven
deriving DecidableEq, Repr

namespace Binary64

/-- The decimal numbers that round to a magnitude form an interval around it. All bounds are
measured in one unit, `scale` of which make the number one. -/
structure Interval where
  lower : Nat
  middle : Nat
  upper : Nat
  scale : Nat
  /-- Both ends round to the magnitude as well. -/
  closed : Bool

/-- The interval of a positive magnitude, in quarters of `2 ^ -1074`. Just above a power of two the
distance to the next lower number is half the distance to the next higher one. -/
def interval (magnitude : Nat) : Interval :=
  let step := Nat.pow 2 (lastPlace magnitude)
  let halfBelow :=
    if magnitude % fractionCount = 0 ∧ 1 < exponentField magnitude then step else 2 * step
  let middle := 4 * units magnitude
  { lower := middle - halfBelow
    middle
    upper := middle + 2 * step
    scale := 4 * unitsOfOne
    closed := significand magnitude % 2 = 0 }

namespace Interval

/-- The interval with all bounds divided by `10 ^ exponent`. -/
def descale (bounds : Interval) (exponent : Int) : Interval :=
  if 0 ≤ exponent then { bounds with scale := bounds.scale * Nat.pow 10 exponent.toNat }
  else
    let factor := Nat.pow 10 (-exponent).toNat
    { bounds with
      lower := bounds.lower * factor
      middle := bounds.middle * factor
      upper := bounds.upper * factor }

def holds (bounds : Interval) (value : Nat) : Bool :=
  if bounds.closed then
    bounds.lower ≤ value * bounds.scale && value * bounds.scale ≤ bounds.upper
  else bounds.lower < value * bounds.scale && value * bounds.scale < bounds.upper

/-- The whole number in the interval that is nearest to its middle, if there is one. -/
def nearestWhole? (tie : Tie) (bounds : Interval) : Option Nat :=
  let below := bounds.middle / bounds.scale
  let above := below + 1
  if bounds.holds below then
    if bounds.holds above then
      let rest := 2 * (bounds.middle % bounds.scale)
      if rest < bounds.scale then some below
      else if bounds.scale < rest then some above
      else
        match tie with
        | .upward => some above
        | .toEven => some (if below % 2 = 0 then below else above)
    else some below
  else if bounds.holds above then some above
  else none

/-- The power of ten just above the middle: the least `n` with `middle < 10 ^ n` in ones. -/
def decimalPoint (bounds : Interval) : Int :=
  if bounds.scale ≤ bounds.middle then Numeral.digitCount (bounds.middle / bounds.scale)
  else 1 - Numeral.digitCount ((bounds.scale - 1) / bounds.middle)

end Interval

/-- The first grid, of `count` digits or more, on which the interval has a point. -/
def firstGrid (tie : Tie) (bounds : Interval) (point : Int) : (tries count : Nat) → Decimal
  | 0, _ => ⟨0, 0⟩
  | tries + 1, count =>
      let exponent := point - count
      match (bounds.descale exponent).nearestWhole? tie with
      | some digits =>
          if digits = Nat.pow 10 count then ⟨1, point⟩ else ⟨digits, exponent⟩
      | none => firstGrid tie bounds point tries (count + 1)

/-- The shortest decimal number that rounds to a magnitude. -/
def shortest (tie : Tie) (magnitude : Nat) : Decimal :=
  if magnitude = 0 then ⟨0, 0⟩
  else
    let bounds := interval magnitude
    firstGrid tie bounds bounds.decimalPoint 17 1

end Binary64

end TikzGlyph
