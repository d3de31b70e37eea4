/-!
# Markup errors

Everything that can be wrong with the markup of a glyph: a construct that is not closed, an element
structure that does not nest, a faulty attribute list, or a faulty entity in an attribute value.
Each cause is a constructor, and `Markup.Error.message` gives its wording.
-/

namespace TikzGlyph

namespace Markup

/-- A construct that is not closed, or not recognised. -/
inductive FormError
  | tagNotClosed
  | unknownMarkup
  | commentNotClosed
  | cdataNotClosed
  | doctypeNotClosed
  | instructionNotClosed
  | declarationNotClosed
  | singleQuoteNotClosed
  | doubleQuoteNotClosed
deriving DecidableEq, Repr

/-- Markup whose constructs are closed but do not fit together. -/
inductive StructureError
  | referenceNotClosed
  | doctypeUnnamed
  /-- An end tag names another element than the innermost open one. -/
  | mismatchedEnd (expected found : String)
  /-- An end tag appears while no element is open. -/
  | unmatchedEnd (name : String)
deriving DecidableEq, Repr

/-- A faulty attribute list. Positions count bytes from the start of the tag's content. -/
inductive AttributeError
  | expectedEquals (position : Nat)
  | expectedValue (position : Nat)
  | unquotedValue (position : Nat)
  | quoteNotClosed (position : Nat) (quote : Char)
  | duplicate (position previous : Nat)
deriving DecidableEq, Repr

/-- A character reference that denotes no character. -/
inductive ReferenceError
  | unexpectedSign
  | noDigits
  | invalidDigit
  | tooLarge
  | nullCharacter
  | notCodePoint (code : Nat)
deriving DecidableEq, Repr

/-- A faulty entity in an attribute value. Positions count bytes from the start of the value. -/
inductive EntityError
  | notClosed (first last : Nat)
  | unknown (first last : Nat) (name : String)
  | reference (cause : ReferenceError)
deriving DecidableEq, Repr

/-- An error of the markup of a glyph. -/
inductive Error
  | form (cause : FormError)
  | structural (cause : StructureError)
  | attributeList (cause : AttributeError)
  | entity (cause : EntityError)
deriving DecidableEq, Repr

def FormError.message : FormError → String
  | .tagNotClosed => "tag not closed: `>` not found before end of input"
  | .unknownMarkup => "unknown or missed symbol in markup"
  | .commentNotClosed => "comment not closed: `-->` not found before end of input"
  | .cdataNotClosed => "CDATA not closed: `]]>` not found before end of input"
  | .doctypeNotClosed => "DOCTYPE not closed: `>` not found before end of input"
  | .instructionNotClosed =>
      "processing instruction not closed: `?>` not found before end of input"
  | .declarationNotClosed => "XML declaration not closed: `?>` not found before end of input"
  | .singleQuoteNotClosed => "attribute value not closed: `'` not found before end of input"
  | .doubleQuoteNotClosed => "attribute value not closed: `\"` not found before end of input"

def StructureError.message : StructureError → String
  | .referenceNotClosed =>
      "entity or character reference not closed: `;` not found before end of input"
  | .doctypeUnnamed => "`<!DOCTYPE>` declaration does not contain a name of a document type"
  | .mismatchedEnd expected found => s!"expected `</{expected}>`, but `</{found}>` was found"
  | .unmatchedEnd name => s!"close tag `</{name}>` does not match any open tag"

def AttributeError.message : AttributeError → String
  | .expectedEquals position =>
      s!"position {position}: attribute key must be directly followed by `=` or space"
  | .expectedValue position =>
      s!"position {position}: `=` must be followed by an attribute value"
  | .unquotedValue position =>
      s!"position {position}: attribute value must be enclosed in `\"` or `'`"
  | .quoteNotClosed position quote =>
      s!"position {position}: missing closing quote `{quote}` in attribute value"
  | .duplicate position previous =>
      s!"position {position}: duplicated attribute, previous declaration at position {previous}"

def ReferenceError.message : ReferenceError → String
  | .unexpectedSign => "unexpected number sign"
  | .noDigits => "cannot parse integer from empty string"
  | .invalidDigit => "invalid digit found in string"
  | .tooLarge => "number too large to fit in target type"
  | .nullCharacter => "0x0 character is not permitted in XML"
  | .notCodePoint code => s!"`{code}` is not a valid codepoint"

def EntityError.message : EntityError → String
  | .notClosed first last =>
      s!"Error while escaping character at range {first}..{last}: Cannot find ';' after '&'"
  | .unknown first last name => s!"at {first}..{last}: unrecognized entity `{name}`"
  | .reference cause => s!"invalid character reference: {cause.message}"

def Error.message : Error → String
  | .form cause => s!"syntax error: {cause.message}"
  | .structural cause => s!"ill-formed document: {cause.message}"
  | .attributeList cause => s!"error while parsing attribute: {cause.message}"
  | .entity cause => cause.message

end Markup

end TikzGlyph
