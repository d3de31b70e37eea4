import TikzGlyph.Document.Spec
import TikzGlyph.Json.Reader

/-!
# Specifications as JSON

A specification and a transform are written as objects with all fields in order. They are read from
an object, in which fields may be missing and others are ignored, or from an array of the fields in
order. A placement is one object that holds its identifier beside the fields of its transform; its
other members are checked but not used, and the fields of the transform are looked at last.
-/

namespace TikzGlyph

open Json

/-- Reads the value of a field that may occur once into a state. -/
def readField {State Value : Type} (get : State → Option Value) (set : State → Value → State)
    (reader : Reader Value) (state : State) : Except Problem (Reader State) :=
  match get state with
  | some _ => .error .mismatched
  | none => .ok (reader.map (set state))

/-- Skips the value of an unknown field. -/
def skipField {State : Type} (state : State) : Except Problem (Reader State) :=
  .ok (Reader.ignored.map fun _ => state)

namespace Transform

/-- The fields of a transform that have been read. -/
structure Fields where
  x : Option Binary64
  y : Option Binary64
  scale : Option Binary64
  rotate : Option Binary64
deriving DecidableEq, Repr

namespace Fields

def none : Fields := ⟨.none, .none, .none, .none⟩

/-- Missing fields are those of the identity. -/
def complete (fields : Fields) : Transform :=
  { x := fields.x.getD identity.x
    y := fields.y.getD identity.y
    scale := fields.scale.getD identity.scale
    rotate := fields.rotate.getD identity.rotate }

def setX (fields : Fields) (value : Binary64) : Fields := { fields with x := some value }
def setY (fields : Fields) (value : Binary64) : Fields := { fields with y := some value }
def setScale (fields : Fields) (value : Binary64) : Fields := { fields with scale := some value }
def setRotate (fields : Fields) (value : Binary64) : Fields := { fields with rotate := some value }

def choose (fields : Fields) (name : String) : Except Problem (Reader Fields) :=
  if name = "x" then readField Fields.x setX Reader.number fields
  else if name = "y" then readField Fields.y setY Reader.number fields
  else if name = "scale" then readField Fields.scale setScale Reader.number fields
  else if name = "rotate" then readField Fields.rotate setRotate Reader.number fields
  else skipField fields

def inOrder : List (Fields → Reader Fields) :=
  [fun fields => Reader.number.map fields.setX, fun fields => Reader.number.map fields.setY,
    fun fields => Reader.number.map fields.setScale,
    fun fields => Reader.number.map fields.setRotate]

end Fields

def reader : Reader Transform :=
  (Reader.record Fields.inOrder Fields.choose .none).map Fields.complete

def ofJson (text : String) : Except Problem Transform := reader.whole text

/-- The members of a written transform. -/
def jsonMembers (transform : Transform) : String :=
  let member (name : String) (value : Binary64) := quote name ++ ":" ++ value.text .json
  ",".intercalate
    [member "x" transform.x, member "y" transform.y, member "scale" transform.scale,
      member "rotate" transform.rotate]

def toJson (transform : Transform) : String :=
  "\x7b" ++ transform.jsonMembers ++ "\x7d"

end Transform

namespace Placement

/-- The members of a placement that have been read. -/
structure Members where
  glyph : Option String
  /-- The other members in order, with their values if these are numbers. -/
  others : List (String × Option Binary64)
deriving DecidableEq, Repr

namespace Members

def none : Members := ⟨.none, []⟩

def setGlyph (members : Members) (glyph : String) : Members := { members with glyph := some glyph }

/-- One more member besides the identifier. -/
def append (members : Members) (name : String) (value : Option Binary64) : Members :=
  { members with others := members.others ++ [(name, value)] }

/-- How deep arrays and objects may nest in a member of a placement. A text as a whole may nest 127
deep, and a placement is the third level of its document. -/
def depth : Nat := 124

/-- The reader of the member with a name. -/
def choose (members : Members) (name : String) : Except Problem (Reader Members) :=
  if name = "glyph" then readField Members.glyph setGlyph Reader.string members
  else .ok ((Reader.anything depth).map (members.append name))

/-- The field of the transform with a name: it may be missing, and else it is one number. -/
def field (members : Members) (name : String) (missing : Binary64) : Except Problem Binary64 :=
  match members.others.filter fun member => member.1 = name with
  | [] => .ok missing
  | [(_, some value)] => .ok value
  | _ => .error .mismatched

/-- The placement that the members describe. -/
def complete (members : Members) : Except Problem Placement :=
  match members.glyph with
  | .none => .error .mismatched
  | some glyph => do
      let x ← members.field "x" Transform.identity.x
      let y ← members.field "y" Transform.identity.y
      let scale ← members.field "scale" Transform.identity.scale
      let rotate ← members.field "rotate" Transform.identity.rotate
      return ⟨glyph, ⟨x, y, scale, rotate⟩⟩

end Members

def reader : Reader Placement := fun tokens =>
  (Reader.object Members.choose .none tokens).bind fun taken =>
    taken.value.complete.map fun placement => taken.map fun _ => placement

def toJson (placement : Placement) : String :=
  "\x7b" ++ quote "glyph" ++ ":" ++ quote placement.glyph ++ ","
    ++ placement.transform.jsonMembers ++ "\x7d"

end Placement

namespace Gradient

/-- Reads a gradient, an array of two strings. -/
def reader : Reader Gradient :=
  Reader.stringPair.map fun pair => ⟨pair.1, pair.2⟩

def toJson (gradient : Gradient) : String :=
  "[" ++ quote gradient.bottom ++ "," ++ quote gradient.top ++ "]"

end Gradient

namespace DocumentSpec

/-- The fields of a specification that have been read. -/
structure Fields where
  colors : Option (List String)
  gradients : Option (List Gradient)
  backgrounds : Option (List String)
  placements : Option (List Placement)
deriving DecidableEq, Repr

namespace Fields

def none : Fields := ⟨.none, .none, .none, .none⟩

/-- Missing fields are empty. -/
def complete (fields : Fields) : DocumentSpec :=
  { colors := fields.colors.getD []
    gradients := fields.gradients.getD []
    backgrounds := fields.backgrounds.getD []
    placements := fields.placements.getD [] }

def setColors (fields : Fields) (value : List String) : Fields :=
  { fields with colors := some value }

def setGradients (fields : Fields) (value : List Gradient) : Fields :=
  { fields with gradients := some value }

def setBackgrounds (fields : Fields) (value : List String) : Fields :=
  { fields with backgrounds := some value }

def setPlacements (fields : Fields) (value : List Placement) : Fields :=
  { fields with placements := some value }

def choose (fields : Fields) (name : String) : Except Problem (Reader Fields) :=
  if name = "colors" then readField Fields.colors setColors (.array .string) fields
  else if name = "gradients" then
    readField Fields.gradients setGradients (.array Gradient.reader) fields
  else if name = "backgrounds" then
    readField Fields.backgrounds setBackgrounds (.array .string) fields
  else if name = "placements" then
    readField Fields.placements setPlacements (.array Placement.reader) fields
  else skipField fields

def inOrder : List (Fields → Reader Fields) :=
  [fun fields => (Reader.array .string).map fields.setColors,
    fun fields => (Reader.array Gradient.reader).map fields.setGradients,
    fun fields => (Reader.array .string).map fields.setBackgrounds,
    fun fields => (Reader.array Placement.reader).map fields.setPlacements]

end Fields

def reader : Reader DocumentSpec :=
  (Reader.record Fields.inOrder Fields.choose .none).map Fields.complete

def ofJson (text : String) : Except Problem DocumentSpec := reader.whole text

/-- The texts of values as a JSON array. -/
def jsonArray (values : List String) : String :=
  "[" ++ ",".intercalate values ++ "]"

def toJson (spec : DocumentSpec) : String :=
  let member (name value : String) := quote name ++ ":" ++ value
  "\x7b"
    ++ ",".intercalate
      [member "colors" (jsonArray (spec.colors.map quote)),
        member "gradients" (jsonArray (spec.gradients.map Gradient.toJson)),
        member "backgrounds" (jsonArray (spec.backgrounds.map quote)),
        member "placements" (jsonArray (spec.placements.map Placement.toJson))]
    ++ "\x7d"

end DocumentSpec

end TikzGlyph
