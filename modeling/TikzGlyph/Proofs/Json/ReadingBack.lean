import TikzGlyph.Proofs.Json.Accepting

/-!
# What readers do with a value

The other direction: from the tokens of a value of the wanted form a reader reads what the value
denotes, and it stops where the value ends. The law is stated once for each way of making readers;
an object is read when the reader of every member reads its value in the state that has been
reached.
-/

namespace TikzGlyph

namespace Json

variable {value result State : Type} {tokens more rest : List Token}

/-- Reading gives a value and leaves some tokens. -/
def Gives (outcome : Except Problem (Taken tokens value)) (read : value) (rest : List Token) :
    Prop :=
  ∃ taken, outcome = .ok taken ∧ taken.value = read ∧ taken.rest = rest

theorem gives_ok {read : value} (shorter : rest.length < tokens.length) :
    Gives (.ok ⟨read, rest, shorter⟩ : Except Problem (Taken tokens value)) read rest :=
  ⟨_, rfl, rfl, rfl⟩

theorem Gives.map {outcome : Except Problem (Taken tokens value)} {read : value}
    (gives : Gives outcome read rest) (change : value → result) :
    Gives (outcome.map (Taken.map change)) (change read) rest := by
  rcases gives with ⟨taken, rfl, rfl, rfl⟩
  exact ⟨_, rfl, rfl, rfl⟩

theorem Gives.widen {outcome : Except Problem (Taken tokens value)} {read : value}
    (gives : Gives outcome read rest) (longer : tokens.length ≤ more.length) :
    Gives (outcome.map (·.widen longer)) read rest := by
  rcases gives with ⟨taken, rfl, rfl, rfl⟩
  exact ⟨_, rfl, rfl, rfl⟩

namespace Reader

/-- In front of any tokens, a reader reads a value and stops after it. -/
def Reads (reader : Reader value) (source : Value) (read : value) : Prop :=
  ∀ tokens rest, tokens = source.tokens ++ rest → Gives (reader tokens) read rest

theorem Reads.map {reader : Reader value} {source : Value} {read : value}
    (reads : reader.Reads source read) (change : value → result) :
    (reader.map change).Reads source (change read) :=
  fun tokens rest tokensEq => (reads tokens rest tokensEq).map change

theorem reads_string (text : String) : string.Reads (.string (some text)) text := by
  rintro _ rest rfl
  exact gives_ok (Nat.lt_succ_self _)

/-- A number is kept where a value of any kind may stand. -/
theorem reads_anything_number (depth : Nat) (read : Binary64) :
    (anything depth).Reads (.number (some read)) (some read) := by
  rintro _ rest rfl
  exact gives_ok (Nat.lt_succ_self _)

/-! ## Arrays -/

theorem gives_elements {element : Reader value} {item : Value} {items : List Value} {read : value}
    {others : List value} (itemReads : element.Reads item read)
    (itemsRead : List.Forall₂ element.Reads items others)
    (tokensEq : tokens = item.tokens ++ (Value.itemTokens false items ++ rest)) :
    Gives (elements element tokens) (read :: others) rest := by
  induction itemsRead generalizing item read tokens with
  | nil =>
      rcases itemReads tokens (.closeBracket :: rest) tokensEq with
        ⟨⟨_, _, shorter⟩, takenEq, rfl, rfl⟩
      rw [elements, takenEq]
      exact gives_ok _
  | @cons next nextRead items others nextReads itemsRead ih =>
      have commaEq : tokens =
          item.tokens ++ .comma :: (next.tokens ++ (Value.itemTokens false items ++ rest)) :=
        tokensEq.trans (by simp [Value.itemTokens, Value.separator])
      rcases itemReads tokens _ commaEq with ⟨⟨_, _, shorter⟩, takenEq, rfl, rfl⟩
      rcases ih nextReads rfl with ⟨later, laterEq, laterValue, laterRest⟩
      rw [elements, takenEq]
      simp only [laterEq]
      exact ⟨_, rfl, congrArg (_ :: ·) laterValue, laterRest⟩

theorem reads_array {element : Reader value} {items : List Value} {read : List value}
    (itemsRead : List.Forall₂ element.Reads items read) :
    (array element).Reads (.array items) read := by
  intro tokens rest tokensEq
  cases itemsRead with
  | nil =>
      subst tokensEq
      exact gives_ok _
  | @cons item first items others itemReads itemsRead =>
      have openEq : tokens =
          .openBracket :: (item.tokens ++ (Value.itemTokens false items ++ rest)) :=
        tokensEq.trans (by simp [Value.tokens, Value.itemTokens, Value.separator])
      generalize laterEq : item.tokens ++ (Value.itemTokens false items ++ rest) = later
        at openEq
      subst openEq
      have nonempty : ∀ closed, later ≠ .closeBracket :: closed := by
        rintro closed rfl
        exact Value.tokens_ne_closeBracket_cons laterEq
      rw [array.eq_3 element later nonempty]
      exact (gives_elements itemReads itemsRead laterEq.symm).widen _

theorem reads_stringPair (first second : String) :
    stringPair.Reads (.array [.string (some first), .string (some second)]) (first, second) := by
  rintro _ rest rfl
  exact gives_ok _

/-! ## Objects -/

/-- Members lead from a state to another one, each by the reader that is chosen for its key. -/
inductive Leads (choose : State → String → Except Problem (Reader State)) :
    State → List (Option String × Value) → State → Prop
  | nil {state : State} : Leads choose state [] state
  | cons {state next final : State} {key : String} {source : Value}
      {others : List (Option String × Value)} {reader : Reader State} :
      choose state key = .ok reader → reader.Reads source next →
        Leads choose next others final → Leads choose state ((some key, source) :: others) final

theorem gives_members {choose : State → String → Except Problem (Reader State)} {key : String}
    {source : Value} {others : List (Option String × Value)} {state final : State}
    (leads : Leads choose state ((some key, source) :: others) final)
    (tokensEq : tokens = .string (some key) :: .colon ::
      (source.tokens ++ (Value.memberTokens false others ++ rest))) :
    Gives (members choose state tokens) final rest := by
  induction others generalizing state key source tokens with
  | nil =>
      cases leads with
      | cons chosen sourceReads othersLead =>
          cases othersLead
          generalize laterEq : source.tokens ++ (Value.memberTokens false [] ++ rest) = later
            at tokensEq
          subst tokensEq
          rcases sourceReads later (.closeBrace :: rest) laterEq.symm with
            ⟨⟨_, _, shorter⟩, takenEq, rfl, rfl⟩
          rw [members, chosen]
          simp only [takenEq]
          exact gives_ok _
  | cons member others ih =>
      cases leads with
      | cons chosen sourceReads othersLead =>
          cases othersLead with
          | @cons _ next _ nextKey nextSource _ _ nextChosen nextReads othersLead =>
              have gives := ih (.cons nextChosen nextReads othersLead) rfl
              generalize laterEq : source.tokens ++
                (Value.memberTokens false ((some nextKey, nextSource) :: others) ++ rest) = later
                at tokensEq
              subst tokensEq
              have commaEq : later = source.tokens ++ .comma :: .string (some nextKey) :: .colon ::
                  (nextSource.tokens ++ (Value.memberTokens false others ++ rest)) :=
                laterEq.symm.trans (by simp [Value.memberTokens, Value.separator])
              rcases sourceReads later _ commaEq with ⟨⟨_, _, shorter⟩, takenEq, rfl, rfl⟩
              rw [members, chosen]
              simp only [takenEq]
              exact gives.widen _

theorem reads_object {choose : State → String → Except Problem (Reader State)} {state final : State}
    {members : List (Option String × Value)} (leads : Leads choose state members final) :
    (object choose state).Reads (.object members) final := by
  intro tokens rest tokensEq
  cases leads with
  | nil =>
      subst tokensEq
      exact gives_ok _
  | @cons _ next _ key source others reader chosen sourceReads othersLead =>
      have openEq : tokens = .openBrace :: .string (some key) :: .colon ::
          (source.tokens ++ (Value.memberTokens false others ++ rest)) :=
        tokensEq.trans (by simp [Value.tokens, Value.memberTokens, Value.separator])
      subst openEq
      exact (gives_members (.cons chosen sourceReads othersLead) rfl).widen _

theorem reads_record {fields : List (State → Reader State)}
    {choose : State → String → Except Problem (Reader State)} {state final : State}
    {members : List (Option String × Value)} (leads : Leads choose state members final) :
    (record fields choose state).Reads (.object members) final := by
  intro tokens rest tokensEq
  have gives := reads_object leads tokens rest tokensEq
  subst tokensEq
  exact gives

/-- A text with the tokens of a value is read as a whole. -/
theorem whole_eq_ok {reader : Reader value} {source : Value} {read : value}
    (reads : reader.Reads source read) {text : String}
    (tokensEq : Json.tokens text.toList = source.tokens) : reader.whole text = .ok read := by
  rcases reads _ [] (tokensEq.trans (List.append_nil _).symm) with
    ⟨⟨_, _, shorter⟩, takenEq, rfl, rfl⟩
  rw [whole, takenEq]

end Reader

end Json

end TikzGlyph
