/-!
# Binary floating-point numbers

The numbers of a drawing are the values of the 64-bit binary interchange format. A finite value is a
sign and a magnitude, and magnitudes are counted upwards from zero: magnitude `n` is the `n`-th
number of the format, so neighbours have neighbouring codes and the code is the bit pattern without
its sign bit. Every magnitude is a whole number of `units`, the unit being `2 ^ -1074`, the smallest
positive number of the format.

The bit patterns that are no number are kept apart as well, so equality of values is equality of bit
patterns.
-/

namespace TikzGlyph

/-- The fractions of a significand: 52 binary digits after the leading one. -/
def Binary64.fractionCount : Nat := Nat.pow 2 52

/-- The finite magnitudes: 2047 exponents with all fractions each. -/
def Binary64.magnitudeCount : Nat := 2047 * fractionCount

/-- A value of the 64-bit binary format. -/
inductive Binary64
  | finite (negative : Bool) (magnitude : Fin Binary64.magnitudeCount)
  | infinite (negative : Bool)
  /-- Not a number; the payload counts the fractions other than zero. -/
  | nan (negative : Bool) (payload : Fin (Binary64.fractionCount - 1))
deriving DecidableEq, Repr

namespace Binary64

/-- The exponent field of a magnitude: zero for the numbers below `2 ^ -1022`. -/
def exponentField (magnitude : Nat) : Nat := magnitude / fractionCount

/-- The power of two, counted from `2 ^ -1074`, of the last place of a magnitude. -/
def lastPlace (magnitude : Nat) : Nat := exponentField magnitude - 1

/-- The digits of a magnitude in units of its last place. -/
def significand (magnitude : Nat) : Nat :=
  if exponentField magnitude = 0 then magnitude else fractionCount + magnitude % fractionCount

/-- A magnitude as a multiple of `2 ^ -1074`. -/
def units (magnitude : Nat) : Nat :=
  significand magnitude * Nat.pow 2 (lastPlace magnitude)

def unitsOfOne : Nat := Nat.pow 2 1074

def zero (negative : Bool) : Binary64 :=
  .finite negative ⟨0, by decide⟩

def one : Binary64 :=
  .finite false ⟨1023 * fractionCount, by decide⟩

instance : Inhabited Binary64 := ⟨zero false⟩

/-- The value with a sign that is not a number and has only the first bit of its fraction set. -/
def quietNaN (negative : Bool) : Binary64 :=
  .nan negative ⟨Nat.pow 2 51 - 1, by decide⟩

/-- A value is finite unless it is infinite or not a number. -/
def IsFinite : Binary64 → Prop
  | .finite _ _ => True
  | .infinite _ => False
  | .nan _ _ => False

instance : DecidablePred IsFinite
  | .finite _ _ => .isTrue trivial
  | .infinite _ => .isFalse id
  | .nan _ _ => .isFalse id

def finite? (value : Binary64) : Option Binary64 :=
  if value.IsFinite then some value else none

def negate : Binary64 → Binary64
  | .finite negative magnitude => .finite (!negative) magnitude
  | .infinite negative => .infinite (!negative)
  | .nan negative payload => .nan (!negative) payload

end Binary64

end TikzGlyph
