import TikzGlyph.Binary64.Numeral
import TikzGlyph.Color
import TikzGlyph.Location
import TikzGlyph.Markup.Error

/-!
# Attributes of a drawing tag

The attributes of a tag are pairs of a name and a value in source order, and the first pair with a
name counts. The typed readers report a missing attribute, a value that is no finite number and a
value that is no colour, each with the place of the tag.
-/

namespace TikzGlyph

/-- Why a glyph cannot be read. -/
inductive GlyphError
  | markup (cause : Markup.Error)
  | missingAttribute (tag name : String) (location : Location)
  | invalidNumber (name value : String) (location : Location)
  | invalidFill (cause : ColorFormatError) (location : Location)
deriving DecidableEq, Repr

def GlyphError.message : GlyphError → String
  | .markup cause => s!"Quick-XML error: {cause.message}"
  | .missingAttribute tag name location =>
      s!"<{tag}> is missing required attribute '{name}' at {location.text}"
  | .invalidNumber name value location =>
      s!"Attribute '{name}' is not a number: '{value}' at {location.text}"
  | .invalidFill cause location => s!"Invalid fill at {location.text}: {cause.message}"

/-- The attributes of one tag in source order. -/
structure Attributes where
  pairs : List (String × String)
deriving DecidableEq, Repr

namespace Attributes

/-- The value of the first attribute with a name. -/
def get? (attributes : Attributes) (name : String) : Option String :=
  attributes.pairs.lookup name

/-- The value of an attribute that a tag must have. -/
def required (attributes : Attributes) (tag name : String) (location : Location) :
    Except GlyphError String :=
  match attributes.get? name with
  | some value => .ok value
  | none => .error (.missingAttribute tag name location)

/-- The finite number that a value denotes, blanks around it aside. -/
def finiteNumber? (value : String) : Option Binary64 :=
  (Binary64.ofChars? (trimBlank value.toList)).bind Binary64.finite?

/-- The number in an attribute that a tag must have. -/
def number (attributes : Attributes) (tag name : String) (location : Location) :
    Except GlyphError Binary64 := do
  let value ← attributes.required tag name location
  match finiteNumber? value with
  | some number => .ok number
  | none => .error (.invalidNumber name value location)

def fill (attributes : Attributes) (location : Location) : Except GlyphError (Option Color) :=
  (Color.parseFill (attributes.get? "fill")).mapError (.invalidFill · location)

end Attributes

end TikzGlyph
