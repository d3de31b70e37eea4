import TikzGlyph.Markup.Error
import TikzGlyph.Text.Blank
import TikzGlyph.Text.ByteLength

/-!
# Tags in a text

A scan goes over the characters of a markup text and finds its tags. Everything else is skipped:
character data, references, comments, CDATA sections, document type declarations with their internal
subsets, and processing instructions. What the text is inside of at a character is a `Markup.Place`,
and `Place.step` says what the character does there. A tag ends at the first `>` outside quotes.
-/

namespace TikzGlyph

namespace Markup

/-- Places inside the internal subset of a document type declaration. -/
inductive SubsetPlace
  | outside
  /-- After `<`. -/
  | opened
  /-- After `<!`. -/
  | bang
  /-- After `<!-`. -/
  | dash
  /-- In a comment, after so many dashes in a row. -/
  | comment (dashes : Nat)
  /-- In a processing instruction; the flag says whether a question mark came last. -/
  | instruction (question : Bool)
  /-- In the keyword of a declaration whose quotes count; these characters are still to come. -/
  | keyword (missing : List Char)
  /-- In a declaration whose quotes count. -/
  | quoted (quote : Option Char)
  /-- In anything else that ends at the next `>`. -/
  | plain
deriving DecidableEq, Repr

/-- What a text is inside of. -/
inductive Place
  | text
  /-- After `&`, before `;`. -/
  | reference
  /-- After `<`. -/
  | opened
  /-- In a tag: the quote it is inside of, and its characters so far, last one first. -/
  | tag (quote : Option Char) (reversed : List Char)
  /-- After `<!`. -/
  | bang
  /-- After `<!-`. -/
  | dash
  /-- In a comment, after so many dashes in a row. -/
  | comment (dashes : Nat)
  /-- In the opening of a CDATA section; these characters are still to come. -/
  | cdataOpening (missing : List Char)
  /-- In a CDATA section, after so many closing brackets in a row. -/
  | cdata (brackets : Nat)
  /-- In the keyword of a document type declaration; these characters are still to come. -/
  | doctypeOpening (missing : List Char)
  /-- In a document type declaration: the quote it is inside of, and whether it has a name. -/
  | doctype (quote : Option Char) (named : Bool)
  | subset (place : SubsetPlace)
  /-- Between the internal subset and the end of its declaration. -/
  | afterSubset
  /-- In a processing instruction: up to four characters of it, and whether a question mark came
  last. -/
  | instruction (beginning : List Char) (question : Bool)
deriving DecidableEq, Repr

/-- What a character does at a place. -/
inductive Advance
  | move (place : Place)
  /-- The character ends a tag; its content comes last character first. -/
  | tag (reversed : List Char)
  | fail (cause : Error)

def isQuote (character : Char) : Bool :=
  character == '\x22' || character == '\x27'

/-- The quote a text is inside of after one more character. -/
def quoteAfter (quote : Option Char) (character : Char) : Option Char :=
  match quote with
  | some opening => if character = opening then none else quote
  | none => if isQuote character then some character else none

/-- The length of the run of one character after one more character. -/
def runAfter (counted : Char) (length : Nat) (character : Char) : Nat :=
  if character = counted then length + 1 else 0

/-- The keywords, after their first letter, of the declarations whose quotes count. -/
def quotedKeyword? : Char → Option (List Char)
  | 'E' => some ['N', 'T', 'I', 'T', 'Y']
  | 'A' => some ['T', 'T', 'L', 'I', 'S', 'T']
  | 'N' => some ['O', 'T', 'A', 'T', 'I', 'O', 'N']
  | _ => none

namespace SubsetPlace

/-- A declaration whose quotes do not count ends at the next `>`. -/
def plainAfter (character : Char) : SubsetPlace :=
  if character = '>' then .outside else .plain

/-- A declaration whose quotes count ends at the next `>` outside them. -/
def quotedAfter (quote : Option Char) (character : Char) : SubsetPlace :=
  if quote = none ∧ character = '>' then .outside else .quoted (quoteAfter quote character)

/-- The place after one more character of the internal subset. -/
def step : SubsetPlace → Char → SubsetPlace
  | .outside, character => if character = '<' then .opened else .outside
  | .opened, character =>
      if character = '!' then .bang
      else if character = '?' then .instruction false
      else plainAfter character
  | .bang, character =>
      if character = '-' then .dash
      else
        match quotedKeyword? character with
        | some missing => .keyword missing
        | none => plainAfter character
  | .dash, character => if character = '-' then .comment 0 else plainAfter character
  | .comment dashes, character =>
      if character = '>' ∧ 2 ≤ dashes then .outside else .comment (runAfter '-' dashes character)
  | .instruction question, character =>
      if character = '>' ∧ question then .outside else .instruction (character == '?')
  | .keyword [], character => quotedAfter none character
  | .keyword (expected :: missing), character =>
      if character = expected then
        if missing = [] then .quoted none else .keyword missing
      else plainAfter character
  | .quoted quote, character => quotedAfter quote character
  | .plain, character => plainAfter character

end SubsetPlace

namespace Place

/-- The kind of markup that `<` and one more character open. -/
def stepOpened : Char → Advance
  | '!' => .move .bang
  | '?' => .move (.instruction [] true)
  | '>' => .tag []
  | character => .move (.tag (quoteAfter none character) [character])

/-- The kind of markup that `<!` and one more character open. -/
def stepBang : Char → Advance
  | '-' => .move .dash
  | '[' => .move (.cdataOpening ['C', 'D', 'A', 'T', 'A', '['])
  | character =>
      if character = 'D' ∨ character = 'd' then
        .move (.doctypeOpening ['O', 'C', 'T', 'Y', 'P', 'E'])
      else .fail (.form .unknownMarkup)

/-- One more character of a document type declaration outside its internal subset. -/
def stepDoctype (quote : Option Char) (named : Bool) (character : Char) : Advance :=
  match quote with
  | some _ => .move (.doctype (quoteAfter quote character) named)
  | none =>
      if character = '>' then
        if named then .move .text else .fail (.structural .doctypeUnnamed)
      else if character = '[' then .move (.subset .outside)
      else .move (.doctype (quoteAfter none character) (named || !isSpace character))

/-- One more character of a processing instruction. The question mark that opens an instruction
does not close it. -/
def stepInstruction (beginning : List Char) (question : Bool) (character : Char) : Advance :=
  if character = '>' ∧ question then
    if beginning = [] then .fail (.form .instructionNotClosed) else .move .text
  else .move (.instruction ((beginning ++ [character]).take 4) (character == '?'))

/-- What one more character does. -/
def step : Place → Char → Advance
  | .text, character =>
      if character = '<' then .move .opened
      else if character = '&' then .move .reference
      else .move .text
  | .reference, character =>
      if character = ';' then .move .text
      else if character = '&' ∨ character = '<' then .fail (.structural .referenceNotClosed)
      else .move .reference
  | .opened, character => stepOpened character
  | .tag quote reversed, character =>
      if quote = none ∧ character = '>' then .tag reversed
      else .move (.tag (quoteAfter quote character) (character :: reversed))
  | .bang, character => stepBang character
  | .dash, character =>
      if character = '-' then .move (.comment 0) else .fail (.form .commentNotClosed)
  | .comment dashes, character =>
      if character = '>' ∧ 2 ≤ dashes then .move .text
      else .move (.comment (runAfter '-' dashes character))
  | .cdataOpening [], _ => .move (.cdata 0)
  | .cdataOpening (expected :: missing), character =>
      if character = expected then
        .move (if missing = [] then .cdata 0 else .cdataOpening missing)
      else .fail (.form .cdataNotClosed)
  | .cdata brackets, character =>
      if character = '>' ∧ 2 ≤ brackets then .move .text
      else .move (.cdata (runAfter ']' brackets character))
  | .doctypeOpening [], character => stepDoctype none false character
  | .doctypeOpening (expected :: missing), character =>
      if character.toUpper = expected then
        .move (if missing = [] then .doctype none false else .doctypeOpening missing)
      else .fail (.form .doctypeNotClosed)
  | .doctype quote named, character => stepDoctype quote named character
  | .subset place, character =>
      if place = .outside ∧ character = ']' then .move .afterSubset
      else .move (.subset (place.step character))
  | .afterSubset, character => .move (if character = '>' then .text else .afterSubset)
  | .instruction beginning question, character => stepInstruction beginning question character

/-- Whether an instruction that begins with these characters is an XML declaration. -/
def isDeclaration : List Char → Bool
  | ['x', 'm', 'l'] => true
  | ['x', 'm', 'l', next] => isSpace next || next == '?'
  | _ => false

/-- What is wrong with a text that ends at a place, if anything is. -/
def unfinished? : Place → Option Error
  | .text => none
  | .reference => some (.structural .referenceNotClosed)
  | .opened => some (.form .tagNotClosed)
  | .tag none _ => some (.form .tagNotClosed)
  | .tag (some quote) _ =>
      some (.form (if quote = '\x27' then .singleQuoteNotClosed else .doubleQuoteNotClosed))
  | .bang => some (.form .unknownMarkup)
  | .dash => some (.form .commentNotClosed)
  | .comment _ => some (.form .commentNotClosed)
  | .cdataOpening _ => some (.form .cdataNotClosed)
  | .cdata _ => some (.form .cdataNotClosed)
  | .doctypeOpening _ => some (.form .doctypeNotClosed)
  | .doctype _ _ => some (.form .doctypeNotClosed)
  | .subset _ => some (.form .doctypeNotClosed)
  | .afterSubset => some (.form .doctypeNotClosed)
  | .instruction beginning _ =>
      some (.form
        (if isDeclaration beginning then .declarationNotClosed else .instructionNotClosed))

end Place

/-- The content of a tag, between `<` and `>`, and the byte offset of its `<`. -/
structure RawTag where
  position : Nat
  content : List Char
deriving DecidableEq, Repr

/-- The tags of a text up to its end or its first fault. -/
structure Scan where
  tags : List RawTag
  failure : Option Error
deriving DecidableEq, Repr

namespace Scan

/-- The scan of a text that starts with a tag. -/
def cons (tag : RawTag) (scan : Scan) : Scan :=
  { scan with tags := tag :: scan.tags }

/-- Scans a text from a byte offset on, starting at a place. -/
def run : (position : Nat) → Place → List Char → Scan
  | _, place, [] => ⟨[], place.unfinished?⟩
  | position, place, character :: rest =>
      match place.step character with
      | .move next => run (position + character.utf8Size) next rest
      | .tag reversed =>
          let content := reversed.reverse
          cons ⟨position - byteLength content - 1, content⟩
            (run (position + character.utf8Size) .text rest)
      | .fail cause => ⟨[], some cause⟩

end Scan

def scan (text : List Char) : Scan := Scan.run 0 .text text

end Markup

end TikzGlyph
