import TikzGlyph.Markup.Attribute
import TikzGlyph.Markup.Scan
import TikzGlyph.Proofs.Result

/-!
# Attributes in the text of a tag

An attribute stands in a tag as its key, an equals sign with space on either side, and its value as
written between quotes of either kind; there may be space between two attributes. A text of this
form whose keys are distinct is read without a fault, and nothing else is.
-/

namespace TikzGlyph

namespace Markup

/-- Space between the parts of a tag. -/
structure Space where
  characters : List Char
  isSpace_of_mem : ∀ character ∈ characters, isSpace character = true

def Space.empty : Space := ⟨[], by simp⟩

def Space.blank : Space where
  characters := [' ']
  isSpace_of_mem := by
    intro character characterMem
    rw [List.mem_singleton.mp characterMem]
    rfl

/-- The key of an attribute. Only its first character may be an equals sign. -/
structure AttributeKey where
  first : Char
  rest : List Char
  no_space : isSpace first = false
  plain : ∀ letter ∈ rest, isSpace letter = false ∧ letter ≠ '='

def AttributeKey.characters (key : AttributeKey) : List Char := key.first :: key.rest

/-- An attribute as it stands in a tag. -/
structure AttributeText where
  key : AttributeKey
  beforeEquals : Space
  afterEquals : Space
  quote : Char
  isQuote_quote : isQuote quote = true
  raw : List Char
  absent : quote ∉ raw
  value : List Char
  unescape_raw : unescape raw = .ok value

theorem isQuote_double : isQuote '\x22' = true := rfl

namespace AttributeText

def toAttribute (written : AttributeText) : Attribute :=
  ⟨written.key.characters, written.value⟩

def text (written : AttributeText) : List Char :=
  written.key.characters ++ (written.beforeEquals.characters ++
    '=' :: (written.afterEquals.characters ++ written.quote :: (written.raw ++ [written.quote])))

end AttributeText

/-- An attribute with the space before it. -/
structure SpacedAttribute where
  before : Space
  written : AttributeText

namespace SpacedAttribute

def key (spaced : SpacedAttribute) : List Char := spaced.written.key.characters

def toAttribute (spaced : SpacedAttribute) : Attribute := spaced.written.toAttribute

def text (spaced : SpacedAttribute) : List Char := spaced.before.characters ++ spaced.written.text

end SpacedAttribute

theorem Space.not_of_mem {space : Space} {character : Char}
    (characterMem : character ∈ space.characters) :
    isQuote character = false ∧ character ∉ ['<', '&', '>', '/', '='] := by
  have aSpace := space.isSpace_of_mem character characterMem
  have apart : ∀ other : Char, isSpace other = false → character ≠ other := by
    rintro other notSpace rfl
    rw [aSpace] at notSpace
    cases notSpace
  refine ⟨?_, ?_⟩
  · simp [isQuote, apart '\x22' rfl, apart '\x27' rfl]
  · simp [apart '<' rfl, apart '&' rfl, apart '>' rfl, apart '/' rfl, apart '=' rfl]

/-! ## Texts with distinct keys are read -/

namespace AttributeReading

variable {position : Nat} {place : AttributePlace} {keys : List (List Char × Nat)}
  {found : List Attribute}

theorem foldlM_step_of_stays {text : List Char}
    (stays : ∀ character ∈ text, ∀ position,
      accept ⟨position, place, keys, found⟩ character = .ok ⟨position, place, keys, found⟩) :
    text.foldlM step ⟨position, place, keys, found⟩ =
      .ok ⟨position + byteLength text, place, keys, found⟩ := by
  induction text generalizing position with
  | nil => rfl
  | cons first rest ih =>
      have firstRead : step ⟨position, place, keys, found⟩ first =
          .ok ⟨position + first.utf8Size, place, keys, found⟩ := by
        rw [step, stays first List.mem_cons_self]
        rfl
      have restStays := fun character characterMem =>
        stays character (List.mem_cons_of_mem first characterMem)
      rw [foldlM_cons_of_ok firstRead, ih restStays, byteLength_cons, Nat.add_assoc]

theorem foldlM_step_key {letters : List Char} (start : Nat) (reversed : List Char)
    (plain : ∀ letter ∈ letters, isSpace letter = false ∧ letter ≠ '=') :
    letters.foldlM step ⟨position, .key start reversed, keys, found⟩ =
      .ok ⟨position + byteLength letters, .key start (letters.reverse ++ reversed), keys,
        found⟩ := by
  induction letters generalizing position reversed with
  | nil => rfl
  | cons first rest ih =>
      rcases plain first List.mem_cons_self with ⟨noSpace, noEquals⟩
      have firstRead : step ⟨position, .key start reversed, keys, found⟩ first =
          .ok ⟨position + first.utf8Size, .key start (first :: reversed), keys, found⟩ := by
        simp [step, accept, noSpace, noEquals, Except.map]
      have restPlain := fun letter letterMem =>
        plain letter (List.mem_cons_of_mem first letterMem)
      rw [foldlM_cons_of_ok firstRead, ih _ restPlain]
      simp [Nat.add_assoc]

theorem foldlM_step_value {text : List Char} {quote : Char} (key reversed : List Char)
    (absent : quote ∉ text) :
    text.foldlM step ⟨position, .value key quote reversed, keys, found⟩ =
      .ok ⟨position + byteLength text, .value key quote (text.reverse ++ reversed), keys,
        found⟩ := by
  induction text generalizing position reversed with
  | nil => rfl
  | cons first rest ih =>
      rw [List.mem_cons, not_or] at absent
      have firstApart : first ≠ quote := fun same => absent.1 same.symm
      have firstRead : step ⟨position, .value key quote reversed, keys, found⟩ first =
          .ok ⟨position + first.utf8Size, .value key quote (first :: reversed), keys, found⟩ := by
        simp [step, accept, firstApart, Except.map]
      rw [foldlM_cons_of_ok firstRead, ih _ absent.2]
      simp [Nat.add_assoc]

theorem foldlM_step_equals {start : Nat} {key : List Char} (space : Space)
    (fresh : keys.lookup key = none) :
    (space.characters ++ ['=']).foldlM step ⟨position, .key start key.reverse, keys, found⟩ =
      .ok ⟨position + byteLength (space.characters ++ ['=']), .afterEquals key,
        keys ++ [(key, start)], found⟩ := by
  rcases space with ⟨characters, allSpace⟩
  cases characters with
  | nil =>
      apply foldlM_cons_of_ok _ []
      simp [step, accept, closeKey, fresh, Except.map]
  | cons first rest =>
      have firstSpace := allSpace first List.mem_cons_self
      have firstRead : step ⟨position, .key start key.reverse, keys, found⟩ first =
          .ok ⟨position + first.utf8Size, .afterKey start key, keys, found⟩ := by
        have noEquals : first ≠ '=' := by
          rintro rfl
          cases firstSpace
        simp [step, accept, firstSpace, noEquals, Except.map]
      have restRead : rest.foldlM step
          ⟨position + first.utf8Size, .afterKey start key, keys, found⟩ =
            .ok ⟨position + first.utf8Size + byteLength rest, .afterKey start key, keys,
              found⟩ := by
        apply foldlM_step_of_stays
        intro character characterMem place
        simp [accept, allSpace character (List.mem_cons_of_mem first characterMem)]
      rw [List.cons_append, foldlM_cons_of_ok firstRead, foldlM_append_of_ok restRead]
      apply foldlM_cons_of_ok _ []
      simp [step, accept, closeKey, fresh, Except.map, isSpace, Nat.add_assoc]

theorem foldlM_step_space (space : Space) :
    space.characters.foldlM step ⟨position, .between, keys, found⟩ =
      .ok ⟨position + byteLength space.characters, .between, keys, found⟩ := by
  apply foldlM_step_of_stays
  intro character characterMem place
  simp [accept, space.isSpace_of_mem character characterMem]

theorem foldlM_step_keyCharacters (key : AttributeKey) :
    key.characters.foldlM step ⟨position, .between, keys, found⟩ =
      .ok ⟨position + byteLength key.characters, .key position key.characters.reverse, keys,
        found⟩ := by
  have firstRead : step ⟨position, .between, keys, found⟩ key.first =
      .ok ⟨position + key.first.utf8Size, .key position [key.first], keys, found⟩ := by
    simp [step, accept, key.no_space, Except.map]
  rw [AttributeKey.characters, foldlM_cons_of_ok firstRead,
    foldlM_step_key position [key.first] key.plain]
  simp [Nat.add_assoc]

theorem foldlM_step_quoted (written : AttributeText) (key : List Char) :
    (written.quote :: (written.raw ++ [written.quote])).foldlM step
        ⟨position, .afterEquals key, keys, found⟩ =
      .ok ⟨position + byteLength (written.quote :: (written.raw ++ [written.quote])), .between,
        keys, ⟨key, written.value⟩ :: found⟩ := by
  have aQuote : written.quote = '\x22' ∨ written.quote = '\x27' := by
    simpa [isQuote] using written.isQuote_quote
  have noSpace : isSpace written.quote = false := by
    rcases aQuote with quoteEq | quoteEq <;> rw [quoteEq] <;> rfl
  have opened : step ⟨position, .afterEquals key, keys, found⟩ written.quote =
      .ok ⟨position + written.quote.utf8Size, .value key written.quote [], keys, found⟩ := by
    simp [step, accept, noSpace, aQuote, Except.map]
  rw [foldlM_cons_of_ok opened, foldlM_append_of_ok (foldlM_step_value key [] written.absent)]
  apply foldlM_cons_of_ok _ []
  simp [step, accept, closeValue, written.unescape_raw, Except.map, Nat.add_assoc]

theorem foldlM_step_attributeText (position : Nat) (found : List Attribute)
    (written : AttributeText)
    (fresh : keys.lookup written.key.characters = none) :
    written.text.foldlM step ⟨position, .between, keys, found⟩ =
      .ok ⟨position + byteLength written.text, .between,
        keys ++ [(written.key.characters, position)], written.toAttribute :: found⟩ := by
  have afterRead : ∀ place, written.afterEquals.characters.foldlM step
      ⟨place, .afterEquals written.key.characters,
        keys ++ [(written.key.characters, position)], found⟩ =
      .ok ⟨place + byteLength written.afterEquals.characters,
        .afterEquals written.key.characters, keys ++ [(written.key.characters, position)],
        found⟩ := by
    intro place
    apply foldlM_step_of_stays
    intro character characterMem place
    simp [accept, written.afterEquals.isSpace_of_mem character characterMem]
  have textEq : written.text = written.key.characters ++
      ((written.beforeEquals.characters ++ ['=']) ++ (written.afterEquals.characters ++
        written.quote :: (written.raw ++ [written.quote]))) := by
    simp [AttributeText.text]
  rw [textEq, foldlM_append_of_ok (foldlM_step_keyCharacters _),
    foldlM_append_of_ok (foldlM_step_equals _ fresh), foldlM_append_of_ok (afterRead _),
    foldlM_step_quoted]
  simp [AttributeText.toAttribute, Nat.add_assoc]

/-- Attributes with distinct new keys are read in their order. -/
theorem foldlM_step_spacedAttributes (attributes : List SpacedAttribute)
    (distinct : (attributes.map SpacedAttribute.key).Nodup)
    (fresh : ∀ spaced ∈ attributes, keys.lookup spaced.key = none) :
    ∃ next laterKeys, (attributes.flatMap SpacedAttribute.text).foldlM step
        ⟨position, .between, keys, found⟩ =
      .ok ⟨next, .between, laterKeys,
        (attributes.map SpacedAttribute.toAttribute).reverse ++ found⟩ := by
  induction attributes generalizing position keys found with
  | nil => exact ⟨position, keys, rfl⟩
  | cons first rest ih =>
      have firstRead := foldlM_step_attributeText (position + byteLength first.before.characters)
        found first.written (fresh first List.mem_cons_self)
      rw [List.map_cons, List.nodup_cons] at distinct
      have restFresh : ∀ spaced ∈ rest,
          (keys ++ [(first.key, position + byteLength first.before.characters)]).lookup spaced.key =
            none := by
        intro spaced spacedMem
        have apart : spaced.key ≠ first.key := by
          intro same
          apply distinct.1
          rw [← same]
          exact List.mem_map_of_mem spacedMem
        have knownFresh := fresh spaced (List.mem_cons_of_mem first spacedMem)
        simp [List.lookup_append, knownFresh, List.lookup_cons, beq_false_of_ne apart]
      rcases ih distinct.2 restFresh with ⟨next, laterKeys, restRead⟩
      refine ⟨next, laterKeys, ?_⟩
      rw [List.flatMap_cons, SpacedAttribute.text, List.append_assoc,
        foldlM_append_of_ok (foldlM_step_space first.before), foldlM_append_of_ok firstRead]
      change _ = Except.ok _ at restRead
      rw [SpacedAttribute.key] at restRead
      rw [restRead]
      simp [SpacedAttribute.toAttribute]

end AttributeReading

theorem readAttributes_texts (position : Nat) {attributes : List SpacedAttribute}
    (distinct : (attributes.map SpacedAttribute.key).Nodup) (after : Space) :
    readAttributes position (attributes.flatMap SpacedAttribute.text ++ after.characters) =
      .ok (attributes.map SpacedAttribute.toAttribute) := by
  have noneKnown : ∀ spaced ∈ attributes,
      ([] : List (List Char × Nat)).lookup spaced.key = none := fun _ _ => rfl
  rcases AttributeReading.foldlM_step_spacedAttributes attributes distinct noneKnown with
    ⟨next, keys, attributesRead⟩
  rw [readAttributes, AttributeReading.start, foldlM_append_of_ok attributesRead,
    AttributeReading.foldlM_step_space]
  simp [Except.bind, AttributeReading.finish]

/-- A value may end in a slash, but the quote after it stands last. -/
theorem getLast?_texts (attributes : List SpacedAttribute) (after : Space) :
    (attributes.flatMap SpacedAttribute.text ++ after.characters).getLast? ≠ some '/' := by
  intro slashLast
  rw [List.getLast?_append] at slashLast
  rcases Option.or_eq_some_iff.mp slashLast with inSpace | ⟨_, inAttributes⟩
  · have regular := Space.not_of_mem (List.mem_of_getLast? inSpace)
    simp at regular
  · rcases List.eq_nil_or_concat attributes with rfl | ⟨earlier, last, rfl⟩
    · cases inAttributes
    · have quoteLast : last.text.getLast? = some last.written.quote := by
        simp [SpacedAttribute.text, AttributeText.text, List.getLast?_append, List.getLast?_cons]
      have aQuote := last.written.isQuote_quote
      rw [List.concat_eq_append, List.flatMap_append, List.flatMap_singleton,
        List.getLast?_append, quoteLast, Option.some_or, Option.some.injEq] at inAttributes
      rw [inAttributes] at aQuote
      cases aQuote

/-! ## Texts that are read -/

def Space.snoc (space : Space) {character : Char} (more : isSpace character = true) : Space where
  characters := space.characters ++ [character]
  isSpace_of_mem := by
    intro other otherMem
    rcases List.mem_append.mp otherMem with before | last
    · exact space.isSpace_of_mem other before
    · rw [List.mem_singleton.mp last]
      exact more

def AttributeKey.snoc (key : AttributeKey) {character : Char}
    (plain : isSpace character = false ∧ character ≠ '=') : AttributeKey where
  first := key.first
  rest := key.rest ++ [character]
  no_space := key.no_space
  plain := by
    intro letter letterMem
    rcases List.mem_append.mp letterMem with before | last
    · exact key.plain letter before
    · rw [List.mem_singleton.mp last]
      exact plain

namespace AttributePlace

/-- The text since the last complete attribute that brings the reader to a place. -/
def HasBegun : AttributePlace → List Char → Prop
  | .between, begun => ∃ space : Space, begun = space.characters
  | .key _ reversed, begun => ∃ (before : Space) (key : AttributeKey),
      reversed.reverse = key.characters ∧ begun = before.characters ++ key.characters
  | .afterKey _ characters, begun => ∃ (before : Space) (key : AttributeKey) (beforeEquals : Space),
      characters = key.characters ∧
        begun = before.characters ++ (key.characters ++ beforeEquals.characters)
  | .afterEquals characters, begun =>
      ∃ (before : Space) (key : AttributeKey) (beforeEquals afterEquals : Space),
        characters = key.characters ∧
          begun = before.characters ++ (key.characters ++ (beforeEquals.characters ++
            '=' :: afterEquals.characters))
  | .value characters quote reversed, begun =>
      ∃ (before : Space) (key : AttributeKey) (beforeEquals afterEquals : Space),
        characters = key.characters ∧ isQuote quote = true ∧ quote ∉ reversed ∧
          begun = before.characters ++ (key.characters ++ (beforeEquals.characters ++
            '=' :: (afterEquals.characters ++ quote :: reversed.reverse)))

/-- The key of an attribute that is not complete but whose key is known. -/
def pendingKeys : AttributePlace → List (List Char)
  | .afterEquals characters => [characters]
  | .value characters _ _ => [characters]
  | _ => []

namespace HasBegun

variable {position : Nat} {character : Char} {key reversed begun : List Char}

theorem between_space (begins : between.HasBegun begun) (more : isSpace character = true) :
    between.HasBegun (begun ++ [character]) := by
  rcases begins with ⟨space, rfl⟩
  exact ⟨space.snoc more, rfl⟩

theorem firstLetter (begins : between.HasBegun begun) (noSpace : isSpace character = false) :
    (AttributePlace.key position [character]).HasBegun (begun ++ [character]) := by
  rcases begins with ⟨space, rfl⟩
  exact ⟨space, ⟨character, [], noSpace, by simp⟩, rfl, rfl⟩

theorem nextLetter (begins : (AttributePlace.key position reversed).HasBegun begun)
    (plain : isSpace character = false ∧ character ≠ '=') :
    (AttributePlace.key position (character :: reversed)).HasBegun (begun ++ [character]) := by
  rcases begins with ⟨before, key, keyEq, rfl⟩
  refine ⟨before, key.snoc plain, ?_, List.append_assoc _ _ _⟩
  rw [List.reverse_cons, keyEq]
  rfl

/-- A key that ends at its last letter has ended without space after it. -/
theorem keyEnd (begins : (AttributePlace.key position reversed).HasBegun begun) :
    (AttributePlace.afterKey position reversed.reverse).HasBegun begun := by
  rcases begins with ⟨before, key, keyEq, rfl⟩
  exact ⟨before, key, .empty, keyEq, by simp [Space.empty]⟩

theorem afterKey_space (begins : (AttributePlace.afterKey position key).HasBegun begun)
    (more : isSpace character = true) :
    (AttributePlace.afterKey position key).HasBegun (begun ++ [character]) := by
  rcases begins with ⟨before, key, beforeEquals, rfl, rfl⟩
  exact ⟨before, key, beforeEquals.snoc more, rfl, by simp [Space.snoc]⟩

theorem equalsSign (begins : (AttributePlace.afterKey position key).HasBegun begun) :
    (AttributePlace.afterEquals key).HasBegun (begun ++ ['=']) := by
  rcases begins with ⟨before, key, beforeEquals, rfl, rfl⟩
  exact ⟨before, key, beforeEquals, .empty, rfl, by simp [Space.empty]⟩

theorem afterEquals_space (begins : (AttributePlace.afterEquals key).HasBegun begun)
    (more : isSpace character = true) :
    (AttributePlace.afterEquals key).HasBegun (begun ++ [character]) := by
  rcases begins with ⟨before, key, beforeEquals, afterEquals, rfl, rfl⟩
  exact ⟨before, key, beforeEquals, afterEquals.snoc more, rfl, by simp [Space.snoc]⟩

theorem openingQuote (begins : (AttributePlace.afterEquals key).HasBegun begun)
    (aQuote : isQuote character = true) :
    (AttributePlace.value key character []).HasBegun (begun ++ [character]) := by
  rcases begins with ⟨before, key, beforeEquals, afterEquals, rfl, rfl⟩
  exact ⟨before, key, beforeEquals, afterEquals, rfl, aQuote, by simp, by simp⟩

theorem withinValue {quote : Char}
    (begins : (AttributePlace.value key quote reversed).HasBegun begun)
    (apart : character ≠ quote) :
    (AttributePlace.value key quote (character :: reversed)).HasBegun (begun ++ [character]) := by
  rcases begins with ⟨before, key, beforeEquals, afterEquals, rfl, aQuote, absent, rfl⟩
  exact ⟨before, key, beforeEquals, afterEquals, rfl, aQuote, by simp [absent, apart.symm], by simp⟩

/-- The closing quote completes an attribute. -/
theorem closingQuote {value : List Char}
    (begins : (AttributePlace.value key character reversed).HasBegun begun)
    (unescaped : unescape reversed.reverse = .ok value) :
    ∃ spaced : SpacedAttribute, spaced.text = begun ++ [character] ∧
      spaced.toAttribute = ⟨key, value⟩ := by
  rcases begins with ⟨before, key, beforeEquals, afterEquals, rfl, aQuote, absent, rfl⟩
  have rawAbsent : character ∉ reversed.reverse := by simpa using absent
  refine ⟨⟨before, key, beforeEquals, afterEquals, character, aQuote, reversed.reverse, rawAbsent,
    value, unescaped⟩, ?_, rfl⟩
  simp [SpacedAttribute.text, AttributeText.text]

end HasBegun

end AttributePlace

namespace AttributeReading

/-- A text holds the attributes that have been read from it, and the attribute begun after them. -/
structure HasRead (reading : AttributeReading) (attributes : List SpacedAttribute)
    (text : List Char) : Prop where
  text_eq : ∃ begun, text = attributes.flatMap SpacedAttribute.text ++ begun ∧
    reading.place.HasBegun begun
  keys_eq : reading.keys.map Prod.fst =
    attributes.map SpacedAttribute.key ++ reading.place.pendingKeys
  distinct : (reading.keys.map Prod.fst).Nodup
  found_eq : reading.found = (attributes.map SpacedAttribute.toAttribute).reverse

variable {reading next : AttributeReading} {attributes : List SpacedAttribute} {text : List Char}
  {character : Char}

theorem closeKey_cases {position : Nat} {key : List Char}
    (closed : reading.closeKey position key = .ok next) :
    key ∉ reading.keys.map Prod.fst ∧
      next = { reading with
        place := .afterEquals key, keys := reading.keys ++ [(key, position)] } := by
  rw [closeKey] at closed
  cases known : reading.keys.lookup key with
  | some previous =>
      rw [known] at closed
      cases closed
  | none =>
      rw [known] at closed
      cases closed
      refine ⟨?_, rfl⟩
      intro keyMem
      rcases List.mem_map.mp keyMem with ⟨⟨same, previous⟩, pairMem, rfl⟩
      have apart := List.lookup_eq_none_iff.mp known _ pairMem
      simp at apart

theorem closeValue_cases {key raw : List Char} (closed : reading.closeValue key raw = .ok next) :
    ∃ value, unescape raw = .ok value ∧
      next = { reading with place := .between, found := ⟨key, value⟩ :: reading.found } := by
  rw [closeValue] at closed
  cases unescaped : unescape raw with
  | error cause =>
      rw [unescaped] at closed
      cases closed
  | ok value =>
      rw [unescaped] at closed
      cases closed
      exact ⟨value, rfl, rfl⟩

/-- What an accepted character does: it continues the attribute begun, ends its key with the equals
sign, or closes its value. -/
inductive Accepts (reading : AttributeReading) (character : Char) : AttributeReading → Prop
  | continues (place : AttributePlace)
      (begins : ∀ begun, reading.place.HasBegun begun → place.HasBegun (begun ++ [character]))
      (pendingEq : place.pendingKeys = reading.place.pendingKeys) :
      Accepts reading character { reading with place := place }
  | endsKey (position : Nat) (key : List Char) (fresh : key ∉ reading.keys.map Prod.fst)
      (begins : ∀ begun, reading.place.HasBegun begun →
        (AttributePlace.afterEquals key).HasBegun (begun ++ [character]))
      (nonePending : reading.place.pendingKeys = []) :
      Accepts reading character
        { reading with place := .afterEquals key, keys := reading.keys ++ [(key, position)] }
  | closesValue (key reversed value : List Char)
      (placeEq : reading.place = .value key character reversed)
      (unescaped : unescape reversed.reverse = .ok value) :
      Accepts reading character
        { reading with place := .between, found := ⟨key, value⟩ :: reading.found }

theorem accepts_of_accept (accepted : reading.accept character = .ok next) :
    reading.Accepts character next := by
  rcases reading with ⟨position, place, keys, found⟩
  cases place with
  | between =>
      simp only [accept] at accepted
      split at accepted <;> cases accepted
      · next more => exact .continues _ (fun _ begins => begins.between_space more) rfl
      · next noSpace =>
          exact .continues _ (fun _ begins => begins.firstLetter (by simpa using noSpace)) rfl
  | key start reversed =>
      simp only [accept] at accepted
      split at accepted
      · next equals =>
          subst equals
          rcases closeKey_cases accepted with ⟨fresh, rfl⟩
          exact .endsKey start _ fresh (fun _ begins => begins.keyEnd.equalsSign) rfl
      · next noEquals =>
          split at accepted <;> cases accepted
          · next more => exact .continues _ (fun _ begins => begins.keyEnd.afterKey_space more) rfl
          · next noSpace =>
              have plain : isSpace character = false ∧ character ≠ '=' :=
                ⟨by simpa using noSpace, noEquals⟩
              exact .continues _ (fun _ begins => begins.nextLetter plain) rfl
  | afterKey start key =>
      simp only [accept] at accepted
      split at accepted
      · next more =>
          cases accepted
          exact .continues _ (fun _ begins => begins.afterKey_space more) rfl
      · split at accepted
        · next equals =>
            subst equals
            rcases closeKey_cases accepted with ⟨fresh, rfl⟩
            exact .endsKey start key fresh (fun _ begins => begins.equalsSign) rfl
        · cases accepted
  | afterEquals key =>
      simp only [accept] at accepted
      split at accepted
      · next more =>
          cases accepted
          exact .continues _ (fun _ begins => begins.afterEquals_space more) rfl
      · split at accepted <;> cases accepted
        next aQuote =>
          have quoteSeen : isQuote character = true := by simpa [isQuote] using aQuote
          exact .continues _ (fun _ begins => begins.openingQuote quoteSeen) rfl
  | value key quote reversed =>
      simp only [accept] at accepted
      split at accepted
      · next closing =>
          subst closing
          rcases closeValue_cases accepted with ⟨value, unescaped, rfl⟩
          exact .closesValue key reversed value rfl unescaped
      · next apart =>
          cases accepted
          exact .continues _ (fun _ begins => begins.withinValue apart) rfl

theorem exists_hasRead_of_accepts (read : reading.HasRead attributes text)
    (accepts : reading.Accepts character next) :
    ∃ later, next.HasRead later (text ++ [character]) := by
  rcases read with ⟨⟨begun, rfl, hasBegun⟩, keysEq, distinct, foundEq⟩
  rw [List.append_assoc]
  cases accepts with
  | continues place begins pendingEq =>
      rw [← pendingEq] at keysEq
      exact ⟨attributes, ⟨_, rfl, begins begun hasBegun⟩, keysEq, distinct, foundEq⟩
  | endsKey position key fresh begins nonePending =>
      rw [nonePending, List.append_nil] at keysEq
      refine ⟨attributes, ⟨_, rfl, begins begun hasBegun⟩, ?_, ?_, foundEq⟩
      · simp [AttributePlace.pendingKeys, keysEq]
      · rw [List.map_append, List.map_singleton, (List.perm_append_singleton key _).nodup_iff]
        exact List.nodup_cons.mpr ⟨fresh, distinct⟩
  | closesValue key reversed value placeEq unescaped =>
      rw [placeEq] at hasBegun keysEq
      rcases hasBegun.closingQuote unescaped with ⟨spaced, spacedText, spacedEq⟩
      have spacedKey : spaced.key = key := congrArg Attribute.key spacedEq
      refine ⟨attributes ++ [spaced], ⟨[], by simp [spacedText], .empty, rfl⟩, ?_, distinct, ?_⟩
      · simpa [spacedKey, AttributePlace.pendingKeys] using keysEq
      · simp [spacedEq, foundEq]

/-- One more character continues what has been read. -/
theorem exists_hasRead_of_step (read : reading.HasRead attributes text)
    (stepped : reading.step character = .ok next) :
    ∃ later, next.HasRead later (text ++ [character]) := by
  rcases map_eq_ok_iff.mp stepped with ⟨middle, accepted, rfl⟩
  rcases exists_hasRead_of_accepts read (accepts_of_accept accepted) with ⟨later, laterRead⟩
  exact ⟨later, laterRead.text_eq, laterRead.keys_eq, laterRead.distinct, laterRead.found_eq⟩

/-- A text that the reader accepts consists of attributes with distinct keys and of space. -/
theorem exists_hasRead_of_foldlM {rest : List Char} (read : reading.HasRead attributes text)
    (continued : rest.foldlM step reading = .ok next) :
    ∃ later, next.HasRead later (text ++ rest) := by
  induction rest generalizing reading attributes text with
  | nil =>
      cases continued
      exact ⟨attributes, by simpa using read⟩
  | cons first rest ih =>
      rcases foldlM_cons_eq_ok_iff.mp continued with ⟨middle, stepped, continued⟩
      rcases exists_hasRead_of_step read stepped with ⟨later, firstRead⟩
      rcases ih firstRead continued with ⟨last, allRead⟩
      rw [List.append_assoc] at allRead
      exact ⟨last, allRead⟩

end AttributeReading

/-- An attribute list that is accepted is written as attributes with distinct keys, and it is read
as these attributes. -/
theorem exists_of_readAttributes {position : Nat} {text : List Char} {found : List Attribute}
    (read : readAttributes position text = .ok found) :
    ∃ (attributes : List SpacedAttribute) (after : Space),
      text = attributes.flatMap SpacedAttribute.text ++ after.characters ∧
        (attributes.map SpacedAttribute.key).Nodup ∧
        found = attributes.map SpacedAttribute.toAttribute := by
  have nothingRead : (AttributeReading.start position).HasRead [] [] :=
    ⟨⟨[], rfl, .empty, rfl⟩, rfl, List.nodup_nil, rfl⟩
  change (text.foldlM AttributeReading.step (.start position) >>=
    AttributeReading.finish) = _ at read
  rcases bind_eq_ok_iff.mp read with ⟨last, continued, finished⟩
  rcases AttributeReading.exists_hasRead_of_foldlM nothingRead continued with
    ⟨attributes, ⟨begun, textEq, hasBegun⟩, keysEq, distinct, foundEq⟩
  rw [AttributeReading.finish] at finished
  split at finished
  · next between =>
      cases finished
      rw [between] at hasBegun keysEq
      rcases hasBegun with ⟨after, rfl⟩
      have allKeys : last.keys.map Prod.fst = attributes.map SpacedAttribute.key := by
        simpa [AttributePlace.pendingKeys] using keysEq
      rw [allKeys] at distinct
      exact ⟨attributes, after, textEq, distinct, by rw [foundEq, List.reverse_reverse]⟩
  all_goals cases finished

end Markup

end TikzGlyph
