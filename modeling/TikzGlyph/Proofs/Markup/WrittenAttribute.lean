import TikzGlyph.Proofs.Markup.AttributeText
import TikzGlyph.Proofs.Markup.Escaping

/-!
# Written attributes

An attribute can be written in many ways: there is some space before it, and there may be space on
both sides of its equals sign. Its value stands between double quotes, with entities in place of the
characters that would mean something there. Reading written attributes with distinct names gives
these names and the values as they were before escaping, in the same order and without a fault.
-/

namespace TikzGlyph

namespace Markup

/-- A name of ASCII letters. -/
structure Name where
  letters : List Char
  not_empty : letters ≠ []
  isAlpha_of_mem : ∀ letter ∈ letters, letter.isAlpha = true

/-- An attribute with the space around its parts. -/
structure WrittenAttribute where
  before : Space
  separated : before.characters ≠ []
  name : Name
  beforeEquals : Space
  afterEquals : Space
  value : List Char

namespace WrittenAttribute

def toAttribute (written : WrittenAttribute) : Attribute :=
  ⟨written.name.letters, written.value⟩

def text (written : WrittenAttribute) : List Char :=
  written.before.characters ++ (written.name.letters ++ (written.beforeEquals.characters ++
    '=' :: (written.afterEquals.characters ++ '\x22' :: (escape written.value ++ ['\x22']))))

end WrittenAttribute

/-! ## Characters of names -/

theorem Name.not_of_mem {name : Name} {letter : Char} (letterMem : letter ∈ name.letters) :
    isSpace letter = false ∧ isQuote letter = false ∧ letter ∉ ['!', '?', '>', '/', '=', ':'] := by
  have alpha := name.isAlpha_of_mem letter letterMem
  have apart : ∀ other : Char, other.isAlpha = false → letter ≠ other := by
    rintro other notAlpha rfl
    rw [alpha] at notAlpha
    cases notAlpha
  refine ⟨?_, ?_, ?_⟩
  · simp [isSpace, apart ' ' rfl, apart '\t' rfl, apart '\r' rfl, apart '\n' rfl]
  · simp [isQuote, apart '\x22' rfl, apart '\x27' rfl]
  · simp [apart '!' rfl, apart '?' rfl, apart '>' rfl, apart '/' rfl, apart '=' rfl, apart ':' rfl]

/-! ## Attribute lists -/

def Name.key (name : Name) : AttributeKey where
  first := name.letters.head name.not_empty
  rest := name.letters.tail
  no_space := (Name.not_of_mem (List.head_mem name.not_empty)).1
  plain := by
    intro letter letterMem
    have regular := Name.not_of_mem (List.mem_of_mem_tail letterMem)
    refine ⟨regular.1, ?_⟩
    rintro rfl
    simp at regular

@[simp]
theorem Name.characters_key (name : Name) : name.key.characters = name.letters :=
  List.cons_head_tail name.not_empty

namespace WrittenAttribute

/-- A written attribute as one between double quotes, with entities in its value. -/
def spaced (written : WrittenAttribute) : SpacedAttribute :=
  ⟨written.before, written.name.key, written.beforeEquals, written.afterEquals, '\x22',
    isQuote_double, escape written.value, notMem_escape written.value, written.value,
    unescape_escape written.value⟩

variable (written : WrittenAttribute)

@[simp]
theorem key_spaced : written.spaced.key = written.name.letters := written.name.characters_key

@[simp]
theorem toAttribute_spaced : written.spaced.toAttribute = written.toAttribute := by
  simp [SpacedAttribute.toAttribute, AttributeText.toAttribute, toAttribute, spaced]

@[simp]
theorem text_spaced : written.spaced.text = written.text := by
  simp [SpacedAttribute.text, AttributeText.text, text, spaced]

@[simp]
theorem texts_spaced (attributes : List WrittenAttribute) :
    (attributes.map spaced).flatMap SpacedAttribute.text = attributes.flatMap text := by
  simp [List.flatMap_map]

end WrittenAttribute

end Markup

end TikzGlyph
