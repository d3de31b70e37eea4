import TikzGlyph.Glyph.Builder
import TikzGlyph.Log
import TikzGlyph.Markup.Event

/-!
# Reading a glyph

`glyphEvents` names the tags of a source and finds their places, and `parseGlyph` builds the glyph
from these events. A fault of a tag's attributes is reported before a later fault of the markup.
-/

namespace TikzGlyph

/-- The attributes of a tag under their local names. -/
def Attributes.ofMarkup (attributes : List Markup.Attribute) : Attributes :=
  ⟨attributes.map fun written =>
    (String.ofList (Markup.localName written.key), String.ofList written.value)⟩

/-- The tag with a possibly qualified name. -/
def Tag.ofMarkup (name : List Char) : Tag :=
  .ofName (String.ofList (Markup.localName name))

/-- An event of the markup of a source as an event of a glyph. -/
def GlyphEvent.ofMarkup (source : List Char) : Markup.Event → GlyphEvent
  | .opening name attributes position =>
      .opening (.ofMarkup name) (.ofMarkup attributes) (.ofOffset source position)
  | .closing name position => .closing (.ofMarkup name) (.ofOffset source position)

/-- The events of a glyph up to the end of its source or the first fault of its markup. -/
structure GlyphTrace where
  events : List GlyphEvent
  failure : Option GlyphError
deriving DecidableEq, Repr

def glyphEvents (source : String) : GlyphTrace :=
  let text := source.toList
  let trace := Markup.events text
  ⟨trace.events.map (GlyphEvent.ofMarkup text), trace.failure.map .markup⟩

/-- Reads a glyph as its flat list of groups. -/
def parseGlyph (source : String) : Except GlyphError (List Group) :=
  let trace := glyphEvents source
  match trace.events.foldlM Builder.handle .start with
  | .error cause => .error cause
  | .ok builder =>
      match trace.failure with
      | some cause => .error cause
      | none => .ok builder.groups

/-- Tags that a glyph does not know are skipped with a warning. -/
def GlyphEvent.log : GlyphEvent → List LogRecord
  | .opening (.unrecognized name) _ location =>
      [⟨.warn, s!"Skipping unknown tag <{name}> at {location.text}"⟩]
  | .closing (.unrecognized name) location =>
      [⟨.warn, s!"Skipping unknown closing tag </{name}> at {location.text}"⟩]
  | _ => []

/-- Whether an event has no fault. -/
def GlyphEvent.isAccepted (event : GlyphEvent) : Bool :=
  event.contribution.isOk

/-- The records of reading a glyph. -/
def parseGlyphLog (source : String) : List LogRecord :=
  let accepted := (glyphEvents source).events.takeWhile GlyphEvent.isAccepted
  accepted.flatMap GlyphEvent.log ++
    match parseGlyph source with
    | .ok groups => [⟨.debug, s!"Parsed glyph into {groups.length} groups"⟩]
    | .error _ => []

end TikzGlyph
