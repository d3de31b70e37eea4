import TikzGlyph.Color
import TikzGlyph.Json.Reader

/-!
# Colours as JSON

A colour is written as the JSON string of its normal spelling and read from a JSON string with any
spelling.
-/

namespace TikzGlyph

/-- Why a JSON text is not a colour. -/
inductive ColorJsonError
  | json (problem : Json.Problem)
  | format (cause : ColorFormatError)
deriving DecidableEq, Repr

namespace Color

def toJson (color : Color) : String := Json.quote color.text

/-- Reads a colour from a JSON string. What stands after the string is looked at last. -/
def ofJson (json : String) : Except ColorJsonError Color := do
  let spelling ← (Json.Reader.string (Json.tokens json.toList)).mapError .json
  let color ← (parseHex spelling.value).mapError .format
  if spelling.rest = [] then return color else .error (.json .malformed)

end Color

end TikzGlyph
