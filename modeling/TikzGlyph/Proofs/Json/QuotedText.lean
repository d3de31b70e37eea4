import TikzGlyph.Proofs.Json.Literal

/-!
# Strings that are written and read back

Every character inside a written string is read as that character, whether it is escaped or not, and
no character ends the string early. A written string is therefore read as one token that holds its
text.
-/

namespace TikzGlyph

namespace Json

/-- The codes of a control character are read as the character. -/
theorem unit?_byteDigits : ∀ code < 0x20,
    unit? (['0', '0'] ++ byteDigits (Char.ofNat code).toUInt8) = some code := by
  decide

theorem stringFrom_control (found : List Char) {character : Char} (control : character.toNat < 0x20)
    (rest : List Char) :
    stringFrom ⟨some found, none⟩
        (['\\', 'u', '0', '0'] ++ byteDigits character.toUInt8 ++ rest) =
      stringFrom ⟨some (character :: found), none⟩ rest := by
  have unitEq := unit?_byteDigits character.toNat control
  rw [Char.ofNat_toNat] at unitEq
  have appended : StringReading.appendUnit ⟨some found, none⟩ character.toNat =
      ⟨some (character :: found), none⟩ := by
    rw [StringReading.appendUnit, if_neg (by omega), if_neg (by omega), Char.ofNat_toNat]
    rfl
  simp only [byteDigits, List.cons_append, List.nil_append] at unitEq ⊢
  rw [stringFrom, unitEq]
  simp only [appended]

theorem stringFrom_plain (found : List Char) {character : Char} (notQuote : character ≠ '\x22')
    (notBackslash : character ≠ '\\') (printable : ¬character.toNat < 0x20) (rest : List Char) :
    stringFrom ⟨some found, none⟩ (character :: rest) =
      stringFrom ⟨some (character :: found), none⟩ rest := by
  rw [stringFrom.eq_def]
  split
  · rename_i empty
    cases empty
  · rename_i single
    exact absurd (List.cons.inj single).1 notBackslash
  · rename_i escaped
    exact absurd (List.cons.inj escaped).1 notBackslash
  · rename_i escaped
    exact absurd (List.cons.inj escaped).1 notBackslash
  · rename_i escaped
    exact absurd (List.cons.inj escaped).1 notBackslash
  · rename_i same
    cases same
    rw [if_neg notQuote, if_neg printable]
    rfl

/-- A character inside a string is read back, however it is written. -/
theorem stringFrom_escapeCharacter (found : List Char) (character : Char) (rest : List Char) :
    stringFrom ⟨some found, none⟩ (escapeCharacter character ++ rest) =
      stringFrom ⟨some (character :: found), none⟩ rest := by
  unfold escapeCharacter
  split
  · rename_i quote
    subst quote
    rfl
  · rename_i notQuote
    split
    · rename_i backslash
      subst backslash
      rfl
    · rename_i notBackslash
      iterate 5
        split
        · rename_i escaped
          subst escaped
          rfl
      split
      · rename_i control
        exact stringFrom_control found control rest
      · rename_i printable
        exact stringFrom_plain found notQuote notBackslash printable rest

/-- A written string is read up to its closing quote. -/
theorem stringFrom_flatMap (found text rest : List Char) :
    stringFrom ⟨some found, none⟩ (text.flatMap escapeCharacter ++ '\x22' :: rest) =
      ⟨.string (some (String.ofList (found.reverse ++ text))), rest⟩ := by
  induction text generalizing found with
  | nil =>
      rw [List.append_nil]
      rfl
  | cons character text ih =>
      rw [List.flatMap_cons, List.append_assoc, stringFrom_escapeCharacter, ih, List.reverse_cons,
        List.append_assoc, List.singleton_append]

theorem tokens_append_quote (text : String) (rest : List Char) :
    tokens ((quote text).toList ++ rest) = .string (some text) :: tokens rest := by
  have read := stringFrom_flatMap [] text.toList rest
  rw [List.reverse_nil, List.nil_append, String.ofList_toList] at read
  rw [quote, String.toList_ofList, List.append_assoc, List.singleton_append, List.cons_append]
  exact tokens_of_lexeme (by decide) read

end Json

end TikzGlyph
