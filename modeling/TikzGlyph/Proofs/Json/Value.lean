import TikzGlyph.Json.Token

/-!
# JSON values

A JSON value is a tree, and its tokens are those of its parts with brackets, commas and colons
between them. The tokens of a value are never a proper prefix of those of another one, so a list of
tokens starts with one value at most. A place where no token can be read is part of no value.
-/

namespace TikzGlyph

namespace Json

/-- A JSON value. A number may be out of range, and a string or a key may have no text. -/
inductive Value
  | word
  | number (value : Option Binary64)
  | string (text : Option String)
  | array (items : List Value)
  | object (members : List (Option String × Value))

namespace Value

/-- What stands in front of a part of a container. -/
def separator (first : Bool) : List Token := if first then [] else [.comma]

mutual

def tokens : Value → List Token
  | .word => [.word]
  | .number value => [.number value]
  | .string text => [.string text]
  | .array items => .openBracket :: itemTokens true items
  | .object members => .openBrace :: memberTokens true members

/-- The tokens of the items of an array up to its end. -/
def itemTokens (first : Bool) : List Value → List Token
  | [] => [.closeBracket]
  | item :: rest => separator first ++ (item.tokens ++ itemTokens false rest)

/-- The tokens of the members of an object up to its end. -/
def memberTokens (first : Bool) : List (Option String × Value) → List Token
  | [] => [.closeBrace]
  | (key, value) :: rest =>
      separator first ++ .string key :: .colon :: (value.tokens ++ memberTokens false rest)

end

/-- The number that a value is, if it is one in range. -/
def number? : Value → Option Binary64
  | .number value => value
  | _ => none

def items : Value → List Value
  | .array items => items
  | _ => []

/-- The values of some members that have a key. -/
def valuesUnder (key : String) (members : List (Option String × Value)) : List Value :=
  (members.filter fun member => member.1 = some key).map Prod.snd

/-- The values that an object has under a key. -/
def under (key : String) : Value → List Value
  | .object members => valuesUnder key members
  | _ => []

theorem valuesUnder_cons_of_eq (key : String) (value : Value)
    (members : List (Option String × Value)) :
    valuesUnder key ((some key, value) :: members) = value :: valuesUnder key members := by
  simp [valuesUnder]

theorem valuesUnder_cons_of_ne {key : String} {member : Option String × Value}
    (other : member.1 ≠ some key) (members : List (Option String × Value)) :
    valuesUnder key (member :: members) = valuesUnder key members := by
  simp [valuesUnder, other]

/-! ## Values are told apart by their tokens -/

theorem tokens_ne_closeBracket_cons {value : Value} {rest other : List Token} :
    value.tokens ++ rest ≠ .closeBracket :: other := by
  cases value <;> simp [tokens]

mutual

/-- Two values at the start of the same tokens are the same, and so is what follows them. -/
theorem tokens_append_inj : ∀ {left right : Value} {rest other : List Token},
    left.tokens ++ rest = right.tokens ++ other → left = right ∧ rest = other
  | .word, right, rest, other, same => by
      cases right <;> simp_all [tokens]
  | .number _, right, rest, other, same => by
      cases right <;> simp_all [tokens]
  | .string _, right, rest, other, same => by
      cases right <;> simp_all [tokens]
  | .array items, right, rest, other, same => by
      cases right with
      | array otherItems =>
          simp only [tokens, List.cons_append, List.cons.injEq, true_and] at same
          rcases itemTokens_append_inj same with ⟨rfl, restEq⟩
          exact ⟨rfl, restEq⟩
      | _ => simp [tokens] at same
  | .object members, right, rest, other, same => by
      cases right with
      | object otherMembers =>
          simp only [tokens, List.cons_append, List.cons.injEq, true_and] at same
          rcases memberTokens_append_inj same with ⟨rfl, restEq⟩
          exact ⟨rfl, restEq⟩
      | _ => simp [tokens] at same

theorem itemTokens_append_inj : ∀ {first : Bool} {left right : List Value}
    {rest other : List Token},
    itemTokens first left ++ rest = itemTokens first right ++ other → left = right ∧ rest = other
  | first, [], [], rest, other, same => by simpa [itemTokens] using same
  | first, [], item :: right, rest, other, same => by
      cases first with
      | false => simp [itemTokens, separator] at same
      | true =>
          simp only [itemTokens, separator, List.append_assoc] at same
          exact (tokens_ne_closeBracket_cons same.symm).elim
  | first, item :: left, [], rest, other, same => by
      cases first with
      | false => simp [itemTokens, separator] at same
      | true =>
          simp only [itemTokens, separator, List.append_assoc] at same
          exact (tokens_ne_closeBracket_cons same).elim
  | first, item :: left, otherItem :: right, rest, other, same => by
      simp only [itemTokens, List.append_assoc, List.append_cancel_left_eq] at same
      rcases tokens_append_inj same with ⟨rfl, later⟩
      rcases itemTokens_append_inj later with ⟨rfl, restEq⟩
      exact ⟨rfl, restEq⟩

theorem memberTokens_append_inj : ∀ {first : Bool} {left right : List (Option String × Value)}
    {rest other : List Token},
    memberTokens first left ++ rest = memberTokens first right ++ other →
      left = right ∧ rest = other
  | first, [], [], rest, other, same => by simpa [memberTokens] using same
  | first, [], member :: right, rest, other, same => by
      cases first <;> simp [memberTokens, separator] at same
  | first, member :: left, [], rest, other, same => by
      cases first <;> simp [memberTokens, separator] at same
  | first, (key, value) :: left, (otherKey, otherValue) :: right, rest, other, same => by
      simp only [memberTokens, List.append_assoc, List.append_cancel_left_eq, List.cons_append,
        List.cons.injEq, Token.string.injEq, true_and] at same
      rcases same with ⟨rfl, same⟩
      rcases tokens_append_inj same with ⟨rfl, later⟩
      rcases memberTokens_append_inj later with ⟨rfl, restEq⟩
      exact ⟨rfl, restEq⟩

end

theorem tokens_injective : Function.Injective tokens := by
  intro left right same
  exact (@tokens_append_inj left right [] [] (congrArg (· ++ []) same)).1

/-! ## Tokens of parts -/

mutual

theorem broken_not_mem_tokens {isString : Bool} {wanted skipped : Problem} :
    ∀ value : Value, .broken isString wanted skipped ∉ value.tokens
  | .word | .number _ | .string _ => by simp [tokens]
  | .array items => by simp [tokens, broken_not_mem_itemTokens true items]
  | .object members => by simp [tokens, broken_not_mem_memberTokens true members]

theorem broken_not_mem_itemTokens {isString : Bool} {wanted skipped : Problem} :
    ∀ (first : Bool) (items : List Value),
      .broken isString wanted skipped ∉ itemTokens first items
  | first, [] => by simp [itemTokens]
  | first, item :: rest => by
      cases first <;>
        simp [itemTokens, separator, broken_not_mem_tokens item,
          broken_not_mem_itemTokens false rest]

theorem broken_not_mem_memberTokens {isString : Bool} {wanted skipped : Problem} :
    ∀ (first : Bool) (members : List (Option String × Value)),
      .broken isString wanted skipped ∉ memberTokens first members
  | first, [] => by simp [memberTokens]
  | first, (key, value) :: rest => by
      cases first <;>
        simp [memberTokens, separator, broken_not_mem_tokens value,
          broken_not_mem_memberTokens false rest]

end

theorem tokens_subset_itemTokens {item : Value} {items : List Value} {first : Bool}
    (itemMem : item ∈ items) : item.tokens ⊆ itemTokens first items := by
  induction items generalizing first with
  | nil => cases itemMem
  | cons head rest ih =>
      rw [itemTokens]
      rcases List.mem_cons.mp itemMem with rfl | itemMem
      · intro token tokenMem
        simp [tokenMem]
      · intro token tokenMem
        simp [ih itemMem tokenMem]

theorem tokens_subset_memberTokens {value : Value} {key : String}
    {members : List (Option String × Value)} {first : Bool}
    (valueMem : value ∈ valuesUnder key members) : value.tokens ⊆ memberTokens first members := by
  induction members generalizing first with
  | nil => cases valueMem
  | cons member rest ih =>
      rcases member with ⟨memberKey, memberValue⟩
      rw [memberTokens]
      intro token tokenMem
      by_cases same : memberKey = some key
      · subst same
        rw [valuesUnder_cons_of_eq] at valueMem
        rcases List.mem_cons.mp valueMem with rfl | valueMem
        · simp [tokenMem]
        · simp [ih valueMem tokenMem]
      · rw [valuesUnder_cons_of_ne same] at valueMem
        simp [ih valueMem tokenMem]

theorem tokens_subset_of_mem_items {item value : Value} (itemMem : item ∈ value.items) :
    item.tokens ⊆ value.tokens := by
  cases value with
  | array items =>
      rw [tokens]
      exact List.subset_cons_of_subset _ (tokens_subset_itemTokens itemMem)
  | _ => cases itemMem

theorem tokens_subset_of_mem_under {key : String} {member value : Value}
    (memberMem : member ∈ value.under key) : member.tokens ⊆ value.tokens := by
  cases value with
  | object members =>
      rw [tokens]
      exact List.subset_cons_of_subset _ (tokens_subset_memberTokens memberMem)
  | _ => cases memberMem

end Value

end Json

end TikzGlyph
