import TikzGlyph.Proofs.Json.NumberText
import TikzGlyph.Proofs.Json.QuotedText
import TikzGlyph.Proofs.Json.Value

/-!
# Values that are written

The text of a value is that of its parts with punctuation around them, and its tokens are those of
its parts with the tokens of the punctuation around them. A number ends where a comma or a bracket
follows, which is so everywhere inside an array and an object.
-/

namespace TikzGlyph

namespace Json

/-! ## Punctuation -/

theorem endsNumber_cons {character : Char} (rest : List Char)
    (ends : character.isDigit = false ∧ character ≠ '.' ∧ character ≠ 'e' ∧ character ≠ 'E') :
    EndsNumber (character :: rest) := by
  rintro _ ⟨⟩
  exact ends

theorem splitsInto_comma : SplitsInto [','] [.comma] :=
  splitsInto_of_lexeme (by decide) fun _ => rfl

theorem splitsInto_colon : SplitsInto [':'] [.colon] :=
  splitsInto_of_lexeme (by decide) fun _ => rfl

theorem splitsInto_openBracket : SplitsInto ['['] [.openBracket] :=
  splitsInto_of_lexeme (by decide) fun _ => rfl

theorem splitsInto_closeBracket : SplitsInto [']'] [.closeBracket] :=
  splitsInto_of_lexeme (by decide) fun _ => rfl

theorem splitsInto_openBrace : SplitsInto ['\x7b'] [.openBrace] :=
  splitsInto_of_lexeme (by decide) fun _ => rfl

theorem splitsInto_closeBrace : SplitsInto ['\x7d'] [.closeBrace] :=
  splitsInto_of_lexeme (by decide) fun _ => rfl

theorem splitsInto_quote (text : String) :
    SplitsInto (quote text).toList [.string (some text)] :=
  tokens_append_quote text

theorem SplitsInto.isReadAs {text : List Char} {front : List Token}
    (splits : SplitsInto text front) : IsReadAs text front :=
  fun rest _ => splits rest

theorem SplitsInto.append {text more : List Char} {front back : List Token}
    (splits : SplitsInto text front) (isReadAs : IsReadAs more back) :
    IsReadAs (text ++ more) (front ++ back) := by
  intro rest ends
  rw [List.append_assoc, splits, isReadAs rest ends, List.append_assoc]

/-- Texts with commas between them are read one after the other. -/
theorem isReadAs_intercalate {texts : List (List Char)} {fronts : List (List Token)}
    (areReadAs : List.Forall₂ IsReadAs texts fronts) :
    IsReadAs ([','].intercalate texts) ([.comma].intercalate fronts) := by
  intro rest ends
  induction areReadAs with
  | nil => rfl
  | @cons text front texts fronts isReadAs areReadAs ih =>
      cases areReadAs with
      | nil => simpa using isReadAs rest ends
      | cons nextRead othersRead =>
          have commaEnds : ∀ others, EndsNumber ([','] ++ others) := fun others =>
            endsNumber_cons others (by decide)
          rw [List.intercalate_cons_cons, List.intercalate_cons_cons, List.append_assoc,
            List.append_assoc, isReadAs _ (commaEnds _), splitsInto_comma, ih, List.append_assoc,
            List.append_assoc]

/-- What is enclosed in brackets or braces ends at the closing one. -/
theorem splitsInto_enclosed {opening closing : Char} {openToken closeToken : Token}
    (opens : SplitsInto [opening] [openToken]) (closes : SplitsInto [closing] [closeToken])
    (ends : closing.isDigit = false ∧ closing ≠ '.' ∧ closing ≠ 'e' ∧ closing ≠ 'E')
    {text : List Char} {front : List Token} (isReadAs : IsReadAs text front) :
    SplitsInto (opening :: (text ++ [closing])) (openToken :: (front ++ [closeToken])) := by
  intro rest
  have closingEnds : EndsNumber ([closing] ++ rest) := endsNumber_cons rest ends
  have textEq : opening :: (text ++ [closing]) ++ rest =
      [opening] ++ (text ++ ([closing] ++ rest)) := by
    simp
  rw [textEq, opens, isReadAs _ closingEnds, closes]
  simp

/-! ## Arrays and objects -/

namespace Value

theorem itemTokens_eq_intercalate (items : List Value) :
    itemTokens true items = [.comma].intercalate (items.map tokens) ++ [.closeBracket] := by
  induction items with
  | nil => rfl
  | cons item rest ih =>
      cases rest with
      | nil => simp [itemTokens, separator]
      | cons next others =>
          rw [List.map_cons, List.map_cons, List.intercalate_cons_cons, List.append_assoc,
            List.append_assoc, ← List.map_cons, ← ih]
          simp [itemTokens, separator]

/-- The tokens of a member of an object. -/
def memberToken (member : Option String × Value) : List Token :=
  .string member.1 :: .colon :: member.2.tokens

theorem memberTokens_eq_intercalate (members : List (Option String × Value)) :
    memberTokens true members =
      [.comma].intercalate (members.map memberToken) ++ [.closeBrace] := by
  induction members with
  | nil => rfl
  | cons member rest ih =>
      cases rest with
      | nil => simp [memberTokens, memberToken, separator]
      | cons next others =>
          rw [List.map_cons, List.map_cons, List.intercalate_cons_cons, List.append_assoc,
            List.append_assoc, ← List.map_cons, ← ih]
          simp [memberTokens, memberToken, separator]

end Value

theorem splitsInto_array {texts : List String} {items : List Value}
    (written : List.Forall₂ (fun text item => IsReadAs text.toList item.tokens) texts items) :
    SplitsInto ("[" ++ ",".intercalate texts ++ "]").toList (Value.array items).tokens := by
  have inner := isReadAs_intercalate (List.forall₂_map_left_iff.mpr
    (List.forall₂_map_right_iff.mpr written))
  have enclosed :=
    splitsInto_enclosed splitsInto_openBracket splitsInto_closeBracket (by decide) inner
  have textEq : ("[" ++ ",".intercalate texts ++ "]").toList =
      '[' :: ([','].intercalate (texts.map String.toList) ++ [']']) := by
    simp [String.toList_append, String.toList_intercalate]
  rw [textEq, Value.tokens, Value.itemTokens_eq_intercalate]
  exact enclosed

theorem splitsInto_object {texts : List String} {members : List (Option String × Value)}
    (written : List.Forall₂ (fun text member => IsReadAs text.toList (Value.memberToken member))
      texts members) :
    SplitsInto ("\x7b" ++ ",".intercalate texts ++ "\x7d").toList
      (Value.object members).tokens := by
  have inner := isReadAs_intercalate (List.forall₂_map_left_iff.mpr
    (List.forall₂_map_right_iff.mpr written))
  have enclosed := splitsInto_enclosed splitsInto_openBrace splitsInto_closeBrace (by decide) inner
  have textEq : ("\x7b" ++ ",".intercalate texts ++ "\x7d").toList =
      '\x7b' :: ([','].intercalate (texts.map String.toList) ++ ['\x7d']) := by
    simp [String.toList_append, String.toList_intercalate]
  rw [textEq, Value.tokens, Value.memberTokens_eq_intercalate]
  exact enclosed

theorem isReadAs_member (key : String) {text : String} {value : Value}
    (isReadAs : IsReadAs text.toList value.tokens) :
    IsReadAs (quote key ++ ":" ++ text).toList (Value.memberToken (some key, value)) := by
  rw [String.toList_append, String.toList_append, List.append_assoc]
  exact (splitsInto_quote key).append (splitsInto_colon.append isReadAs)

end Json

end TikzGlyph
