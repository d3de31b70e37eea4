import TikzGlyph.Markup.Attribute
import TikzGlyph.Markup.Scan

/-!
# Element events

The tags of a text open and close elements. `Markup.events` lists these events in document order, a
self-closing tag counting as an opening and a closing one at the same place. Every end tag has to
name the innermost open element; elements may be left open at the end of the text. The list ends at
the first fault, which is reported beside the events before it.
-/

namespace TikzGlyph

namespace Markup

/-- An element is opened or closed by the tag whose `<` stands at a byte offset. -/
inductive Event
  | opening (name : List Char) (attributes : List Attribute) (position : Nat)
  | closing (name : List Char) (position : Nat)
deriving DecidableEq, Repr

/-- The events of a text up to its end or its first fault. -/
structure Trace where
  events : List Event
  failure : Option Error
deriving DecidableEq, Repr

/-- Puts events in front of a trace. -/
def Trace.prepend (events : List Event) (trace : Trace) : Trace :=
  { trace with events := events ++ trace.events }

/-- The part of a name after its first colon, or the whole name if it has none. -/
def localName (name : List Char) : List Char :=
  match name.dropWhile (· ≠ ':') with
  | [] => name
  | _ :: rest => rest

/-- A text without the space at its end. -/
def trimEndSpace (text : List Char) : List Char :=
  (text.reverse.dropWhile isSpace).reverse

/-- What a tag does. -/
inductive TagRole
  | opens (content : List Char)
  | closes (name : List Char)
  | opensAndCloses (content : List Char)
deriving DecidableEq, Repr

/-- A slash at the start of a tag makes it an end tag, and one at its end a self-closing tag. Space
at the end of an end tag does not belong to the name, unless there is nothing else. -/
def TagRole.ofContent : List Char → TagRole
  | '/' :: name =>
      let trimmed := trimEndSpace name
      .closes (if trimmed = [] then name else trimmed)
  | content =>
      if content.getLast? = some '/' then .opensAndCloses content.dropLast else .opens content

/-- The name at the start of a tag, up to the first space. -/
def tagName (content : List Char) : List Char :=
  content.takeWhile fun character => !isSpace character

def tagAttributes (content : List Char) : Except Error (List Attribute) :=
  let name := tagName content
  readAttributes (byteLength name) (content.drop name.length)

def openingEvent (position : Nat) (content : List Char) : Except Error Event :=
  (tagAttributes content).map fun attributes => .opening (tagName content) attributes position

/-- Closes the innermost open element, if it has this name. -/
def closeElement (openNames : List (List Char)) (name : List Char) :
    Except Error (List (List Char)) :=
  match openNames with
  | [] => .error (.structural (.unmatchedEnd (String.ofList name)))
  | innermost :: outer =>
      if innermost = name then .ok outer
      else
        .error (.structural (.mismatchedEnd (String.ofList innermost) (String.ofList name)))

/-- The events of a tag while some elements are open, innermost first, and the elements that are
open after it. -/
def tagEvents (openNames : List (List Char)) (tag : RawTag) :
    Except Error (List Event × List (List Char)) :=
  match TagRole.ofContent tag.content with
  | .opens content =>
      (openingEvent tag.position content).map fun event =>
        ([event], tagName content :: openNames)
  | .opensAndCloses content =>
      (openingEvent tag.position content).map fun event =>
        ([event, .closing (tagName content) tag.position], openNames)
  | .closes name =>
      (closeElement openNames name).map fun outer => ([.closing name tag.position], outer)

/-- The events of the tags of a scan while some elements are open. A fault of a tag comes before
the fault that ended the scan. -/
def Scan.trace (failure : Option Error) : (openNames : List (List Char)) → List RawTag → Trace
  | _, [] => ⟨[], failure⟩
  | openNames, tag :: rest =>
      match tagEvents openNames tag with
      | .error cause => ⟨[], some cause⟩
      | .ok (events, next) => (trace failure next rest).prepend events

/-- A source without the byte order mark that may start it. The mark does not count in positions. -/
def dropByteOrderMark : List Char → List Char
  | '\ufeff' :: rest => rest
  | text => text

/-- The element events of a source. -/
def events (source : List Char) : Trace :=
  let found := scan (dropByteOrderMark source)
  Scan.trace found.failure [] found.tags

end Markup

end TikzGlyph
