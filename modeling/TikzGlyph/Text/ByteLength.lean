/-!
# Lengths in bytes

Positions in markup and in colours count the bytes of the UTF-8 form of a text. A text can be cut
only where a character starts or the text ends.
-/

namespace TikzGlyph

/-- How many bytes a text takes. -/
def byteLength (text : List Char) : Nat :=
  text.foldl (fun count character => count + character.utf8Size) 0

@[simp]
theorem byteLength_nil : byteLength [] = 0 := rfl

@[simp]
theorem byteLength_cons (character : Char) (rest : List Char) :
    byteLength (character :: rest) = character.utf8Size + byteLength rest := by
  have fromAnyCount : ∀ (text : List Char) (count : Nat),
      text.foldl (fun count character => count + character.utf8Size) count =
        count + byteLength text := by
    intro text
    induction text with
    | nil => intro count; rfl
    | cons first rest ih =>
        intro count
        simp only [byteLength, List.foldl_cons]
        rw [ih, ih (0 + first.utf8Size)]
        omega
  simp only [byteLength, List.foldl_cons]
  rw [fromAnyCount rest (0 + character.utf8Size)]
  simp only [byteLength]
  omega

@[simp]
theorem byteLength_append (left right : List Char) :
    byteLength (left ++ right) = byteLength left + byteLength right := by
  induction left with
  | nil => simp
  | cons first rest ih =>
      rw [List.cons_append, byteLength_cons, byteLength_cons, ih]
      omega

/-- The text after so many bytes, if it can be cut there. -/
def dropBytes? : (count : Nat) → List Char → Option (List Char)
  | 0, text => some text
  | _ + 1, [] => none
  | count + 1, character :: rest =>
      if character.utf8Size ≤ count + 1 then dropBytes? (count + 1 - character.utf8Size) rest
      else none

/-- The first so many bytes of a text, if it can be cut after them. -/
def takeBytes? : (count : Nat) → List Char → Option (List Char)
  | 0, _ => some []
  | _ + 1, [] => none
  | count + 1, character :: rest =>
      if character.utf8Size ≤ count + 1 then
        (takeBytes? (count + 1 - character.utf8Size) rest).map (character :: ·)
      else none

/-! ## Cutting between two parts -/

theorem dropBytes?_cons (character : Char) (rest : List Char) (count : Nat) :
    dropBytes? (character.utf8Size + count) (character :: rest) = dropBytes? count rest := by
  have width := character.utf8Size_pos
  rcases Nat.exists_eq_add_one_of_ne_zero (by omega : character.utf8Size ≠ 0) with ⟨more, sizeEq⟩
  have sumEq : character.utf8Size + count = more + count + 1 := by omega
  rw [sumEq, dropBytes?, if_pos (by omega)]
  congr 1
  omega

theorem takeBytes?_cons (character : Char) (rest : List Char) (count : Nat) :
    takeBytes? (character.utf8Size + count) (character :: rest) =
      (takeBytes? count rest).map (character :: ·) := by
  have width := character.utf8Size_pos
  rcases Nat.exists_eq_add_one_of_ne_zero (by omega : character.utf8Size ≠ 0) with ⟨more, sizeEq⟩
  have sumEq : character.utf8Size + count = more + count + 1 := by omega
  have leftEq : more + count + 1 - character.utf8Size = count := by omega
  rw [sumEq, takeBytes?, if_pos (by omega), leftEq]

@[simp]
theorem dropBytes?_append (before after : List Char) :
    dropBytes? (byteLength before) (before ++ after) = some after := by
  induction before with
  | nil => cases after <;> rfl
  | cons first rest ih => rw [byteLength_cons, List.cons_append, dropBytes?_cons, ih]

@[simp]
theorem takeBytes?_append (before after : List Char) :
    takeBytes? (byteLength before) (before ++ after) = some before := by
  induction before with
  | nil => cases after <;> rfl
  | cons first rest ih =>
      rw [byteLength_cons, List.cons_append, takeBytes?_cons, ih]
      rfl

/-- What is cut off the front of a text is the part of it that takes so many bytes. -/
theorem takeBytes?_eq_some_iff {count : Nat} {text before : List Char} :
    takeBytes? count text = some before ↔
      ∃ after, text = before ++ after ∧ byteLength before = count := by
  constructor
  · intro taken
    induction text generalizing count before with
    | nil =>
        cases count with
        | zero =>
            cases taken
            exact ⟨[], rfl, rfl⟩
        | succ count => cases taken
    | cons first rest ih =>
        cases count with
        | zero =>
            cases taken
            exact ⟨first :: rest, rfl, rfl⟩
        | succ count =>
            rw [takeBytes?] at taken
            split at taken
            · next fits =>
                rcases Option.map_eq_some_iff.mp taken with ⟨start, startTaken, rfl⟩
                rcases ih startTaken with ⟨after, rfl, lengthEq⟩
                refine ⟨after, rfl, ?_⟩
                rw [byteLength_cons, lengthEq]
                omega
            · cases taken
  · rintro ⟨after, rfl, rfl⟩
    exact takeBytes?_append before after

end TikzGlyph
