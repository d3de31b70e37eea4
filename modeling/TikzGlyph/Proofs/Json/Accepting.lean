import Mathlib.Data.List.Forall2
import TikzGlyph.Proofs.Json.Skipping

/-!
# What readers accept

A reader accepts the tokens of a value and nothing else, and what it reads is what the value denotes
for it. The law is stated once for each way of making readers: whatever the readers of the parts
denote, the whole denotes part by part. An object is read as a run over its members and an array of
fixed length as a run over its items, each of which takes the state of the run to the next.
-/

namespace TikzGlyph

namespace Json

namespace Taken

variable {value result : Type} {tokens more : List Token}

@[simp] theorem map_value (change : value → result) (taken : Taken tokens value) :
    (taken.map change).value = change taken.value := rfl

@[simp] theorem map_rest (change : value → result) (taken : Taken tokens value) :
    (taken.map change).rest = taken.rest := rfl

@[simp] theorem widen_value (taken : Taken tokens value) (longer : tokens.length ≤ more.length) :
    (taken.widen longer).value = taken.value := rfl

@[simp] theorem widen_rest (taken : Taken tokens value) (longer : tokens.length ≤ more.length) :
    (taken.widen longer).rest = taken.rest := rfl

end Taken

namespace Reader

variable {value result State : Type} {tokens : List Token}

/-- A reader accepts only the tokens of values, and what it reads is denoted by the value. -/
def Accepts (reader : Reader value) (denotes : Value → value → Prop) : Prop :=
  ∀ (tokens : List Token) (taken : Taken tokens value), reader tokens = .ok taken →
    ∃ source : Value, tokens = source.tokens ++ taken.rest ∧ denotes source taken.value

theorem Accepts.mono {reader : Reader value} {denotes weaker : Value → value → Prop}
    (accepts : Accepts reader denotes)
    (weaken : ∀ source read, denotes source read → weaker source read) :
    Accepts reader weaker := by
  intro tokens taken accepted
  rcases accepts tokens taken accepted with ⟨source, tokensEq, denoted⟩
  exact ⟨source, tokensEq, weaken _ _ denoted⟩

theorem Accepts.map {reader : Reader value} {denotes : Value → value → Prop}
    (accepts : Accepts reader denotes) (change : value → result) :
    Accepts (reader.map change) fun source read =>
      ∃ before, denotes source before ∧ change before = read := by
  intro tokens taken accepted
  rcases map_eq_ok_iff.mp accepted with ⟨before, beforeAccepted, rfl⟩
  rcases accepts tokens before beforeAccepted with ⟨source, tokensEq, denoted⟩
  exact ⟨source, tokensEq, before.value, denoted, rfl⟩

/-! ## Scalars and skipped values -/

theorem accepts_scalar {select : Token → Option value} {wrap : value → Value}
    (tokensWrap : ∀ token read, select token = some read → (wrap read).tokens = [token]) :
    Accepts (scalar select) fun source read => source = wrap read := by
  intro tokens taken accepted
  cases tokens with
  | nil => cases accepted
  | cons token rest =>
      rw [scalar] at accepted
      split at accepted
      · rename_i read selected
        cases accepted
        exact ⟨wrap read, by rw [tokensWrap token read selected]; rfl, rfl⟩
      · cases accepted

theorem accepts_string : Accepts string fun source text => source = .string (some text) := by
  apply accepts_scalar
  intro token text selected
  cases token with
  | string found =>
      cases selected
      rfl
  | _ => cases selected

theorem accepts_ignored : Accepts ignored fun _ _ => True := by
  intro tokens taken accepted
  rcases exists_value_of_skipFrom accepted with ⟨source, tokensEq⟩
  exact ⟨source, tokensEq, trivial⟩

/-- Of a value of any kind the number is kept, if it is one. -/
theorem accepts_anything (depth : Nat) :
    Accepts (anything depth) fun source kept => kept = source.number? := by
  intro tokens taken accepted
  rcases map_eq_ok_iff.mp accepted with ⟨skipped, skippedEq, rfl⟩
  rcases exists_value_of_skipFrom skippedEq with ⟨source, tokensEq⟩
  refine ⟨source, tokensEq, ?_⟩
  simp only [Taken.map_value]
  rw [tokensEq]
  cases source <;> rfl

/-! ## Arrays -/

theorem exists_items_of_elements {element : Reader value} {denotes : Value → value → Prop}
    (accepts : Accepts element denotes) {taken : Taken tokens (List value)}
    (accepted : elements element tokens = .ok taken) :
    ∃ item items, tokens = item.tokens ++ (Value.itemTokens false items ++ taken.rest) ∧
      List.Forall₂ denotes (item :: items) taken.value := by
  induction tokens using elements.induct element with
  | case1 tokens problem failed =>
      rw [elements, failed] at accepted
      cases accepted
  | case2 tokens read shorter takenEq =>
      rw [elements, takenEq] at accepted
      cases accepted
  | case3 tokens first rest shorter takenEq =>
      rw [elements, takenEq] at accepted
      cases accepted
      rcases accepts tokens _ takenEq with ⟨item, tokensEq, denoted⟩
      exact ⟨item, [], tokensEq, .cons denoted .nil⟩
  | case4 tokens first rest shorter takenEq smaller ih =>
      rw [elements, takenEq] at accepted
      rcases map_eq_ok_iff.mp accepted with ⟨others, othersAccepted, rfl⟩
      rcases accepts tokens _ takenEq with ⟨item, tokensEq, denoted⟩
      rcases ih othersAccepted with ⟨next, items, restEq, othersDenoted⟩
      refine ⟨item, next :: items, tokensEq.trans ?_, .cons denoted othersDenoted⟩
      simp [Value.itemTokens, Value.separator, restEq]
  | case5 tokens read notEnd notLast notComma takenEq =>
      rw [elements, takenEq] at accepted
      split at accepted
      · cases accepted
      · rename_i ended
        cases ended
        exact (notEnd _ _ rfl).elim
      · rename_i last
        cases last
        exact (notLast _ _ _ rfl).elim
      · rename_i comma
        cases comma
        exact (notComma _ _ _ rfl).elim
      · cases accepted

theorem accepts_array {element : Reader value} {denotes : Value → value → Prop}
    (accepts : Accepts element denotes) :
    Accepts (array element) fun source read =>
      ∃ items, source = .array items ∧ List.Forall₂ denotes items read := by
  intro tokens taken accepted
  unfold array at accepted
  split at accepted
  · cases accepted
  · cases accepted
    exact ⟨.array [], rfl, [], rfl, .nil⟩
  · rcases map_eq_ok_iff.mp accepted with ⟨others, othersAccepted, rfl⟩
    rcases exists_items_of_elements accepts othersAccepted with ⟨item, items, restEq, denoted⟩
    refine ⟨.array (item :: items), ?_, item :: items, rfl, denoted⟩
    simpa [Value.tokens, Value.itemTokens, Value.separator] using restEq
  · cases accepted

/-! ## Arrays of fixed length -/

/-- Items take a state to another one, each by the step at its place. -/
inductive ReadsItems : List (State → Value → State → Prop) → State → List Value → State → Prop
  | nil {steps : List (State → Value → State → Prop)} {state : State} :
      ReadsItems steps state [] state
  | cons {step : State → Value → State → Prop} {steps : List (State → Value → State → Prop)}
      {state next final : State} {item : Value} {rest : List Value} :
      step state item next → ReadsItems steps next rest final →
        ReadsItems (step :: steps) state (item :: rest) final

section Positions

variable {fields : List (State → Reader State)} {steps : List (State → Value → State → Prop)}

/-- An item of an array and those after it are read one after the other. -/
theorem exists_items_of_bind {field : Reader State} {denotes : Value → State → Prop}
    {more : List Token} {longer : ∀ next : Taken tokens State, next.rest.length ≤ more.length}
    {taken : Taken more State} (accepts : Accepts field denotes)
    (later : ∀ {state : State} {tokens : List Token} {taken : Taken tokens State},
      positions false fields state tokens = .ok taken →
        ∃ items, tokens = Value.itemTokens false items ++ taken.rest ∧
          ReadsItems steps state items taken.value)
    (accepted : ((field tokens).bind fun next =>
      (positions false fields next.value next.rest).map (·.widen (longer next))) = .ok taken) :
    ∃ item items next, tokens = item.tokens ++ (Value.itemTokens false items ++ taken.rest) ∧
      denotes item next ∧ ReadsItems steps next items taken.value := by
  rcases bind_eq_ok_iff.mp accepted with ⟨itemTaken, itemAccepted, accepted⟩
  rcases map_eq_ok_iff.mp accepted with ⟨othersTaken, othersAccepted, rfl⟩
  rcases accepts _ _ itemAccepted with ⟨item, tokensEq, denoted⟩
  rcases later othersAccepted with ⟨items, restEq, read⟩
  exact ⟨item, items, _, tokensEq.trans (congrArg _ restEq), denoted, read⟩

theorem exists_items_of_positions
    (accepts : List.Forall₂ (fun field step => ∀ state, Accepts (field state) (step state))
      fields steps)
    {first : Bool} {state : State} {taken : Taken tokens State}
    (accepted : positions first fields state tokens = .ok taken) :
    ∃ items, tokens = Value.itemTokens first items ++ taken.rest ∧
      ReadsItems steps state items taken.value := by
  induction accepts generalizing first state tokens with
  | nil =>
      unfold positions at accepted
      split at accepted
      · cases accepted
      · cases accepted
        exact ⟨[], rfl, .nil⟩
      · cases accepted
  | cons fieldAccepts othersAccept ih =>
      unfold positions at accepted
      split at accepted
      · cases accepted
      · cases accepted
        exact ⟨[], rfl, .nil⟩
      · split at accepted
        · cases accepted
        · rename_i later
          rcases exists_items_of_bind (fieldAccepts _) ih accepted with
            ⟨item, items, next, restEq, stepped, read⟩
          refine ⟨item :: items, ?_, .cons stepped read⟩
          simp [Value.itemTokens, Value.separator, later, restEq]
      · split at accepted
        · rename_i starts
          rcases exists_items_of_bind (fieldAccepts _) ih accepted with
            ⟨item, items, next, tokensEq, stepped, read⟩
          refine ⟨item :: items, ?_, .cons stepped read⟩
          simp [Value.itemTokens, Value.separator, starts, tokensEq]
        · cases accepted

end Positions

/-! ## Objects -/

/-- Members take a state to another one, each by the step for its key. -/
inductive ReadsMembers (step : State → String → Value → State → Prop) :
    State → List (Option String × Value) → State → Prop
  | nil {state : State} : ReadsMembers step state [] state
  | cons {state next final : State} {key : String} {value : Value}
      {rest : List (Option String × Value)} :
      step state key value next → ReadsMembers step next rest final →
        ReadsMembers step state ((some key, value) :: rest) final

section Members

variable {choose : State → String → Except Problem (Reader State)}
  {step : State → String → Value → State → Prop} {state : State}

/-- A run over members reads one of them, after which the object ends or a comma follows. -/
theorem members_cases {taken : Taken tokens State}
    (accepted : members choose state tokens = .ok taken) :
    ∃ (key : String) (reader : Reader State) (valueTokens : List Token)
      (read : Taken valueTokens State),
      tokens = .string (some key) :: .colon :: valueTokens ∧ choose state key = .ok reader ∧
        reader valueTokens = .ok read ∧
        ((read.rest = .closeBrace :: taken.rest ∧ taken.value = read.value) ∨
          ∃ (rest : List Token) (later : Taken rest State), read.rest = .comma :: rest ∧
            members choose read.value rest = .ok later ∧ taken.value = later.value ∧
            taken.rest = later.rest) := by
  unfold members at accepted
  split at accepted
  · cases accepted
  · cases accepted
  · rename_i key afterKey
    split at accepted
    · cases accepted
    · rename_i reader chosen
      split at accepted
      · cases accepted
      · rename_i valueTokens
        split at accepted
        · cases accepted
        · cases accepted
        · rename_i next rest shorter readEq
          cases accepted
          exact ⟨key, reader, valueTokens, _, rfl, chosen, readEq, .inl ⟨rfl, rfl⟩⟩
        · rename_i next rest shorter readEq
          rcases map_eq_ok_iff.mp accepted with ⟨later, laterAccepted, rfl⟩
          exact ⟨key, reader, valueTokens, _, rfl, chosen, readEq,
            .inr ⟨rest, later, rfl, laterAccepted, rfl, rfl⟩⟩
        · cases accepted
      · cases accepted
  · cases accepted

theorem exists_members_of_members
    (accepts : ∀ state key reader, choose state key = .ok reader →
      Accepts reader (step state key))
    {taken : Taken tokens State} (accepted : members choose state tokens = .ok taken) :
    ∃ key value others,
      tokens = .string (some key) :: .colon ::
        (value.tokens ++ (Value.memberTokens false others ++ taken.rest)) ∧
      ReadsMembers step state ((some key, value) :: others) taken.value := by
  induction length_eq : tokens.length using Nat.strongRecOn generalizing state tokens with
  | ind length ih =>
    rcases members_cases accepted with
      ⟨key, reader, valueTokens, read, rfl, chosen, readEq, restCases⟩
    rcases accepts _ _ _ chosen _ _ readEq with ⟨value, valueEq, stepped⟩
    rcases restCases with
      ⟨restEq, finalEq⟩ | ⟨rest, later, restEq, laterAccepted, finalEq, afterEq⟩
    · rw [← finalEq] at stepped
      refine ⟨key, value, [], ?_, .cons stepped .nil⟩
      simp [Value.memberTokens, valueEq, restEq]
    · have smaller : rest.length < length := by
        have shorter := read.shorter
        rw [restEq] at shorter
        simp only [List.length_cons] at shorter length_eq
        omega
      rcases ih _ smaller laterAccepted rfl with
        ⟨nextKey, nextValue, others, laterEq, othersRead⟩
      rw [← finalEq] at othersRead
      refine ⟨key, value, (some nextKey, nextValue) :: others, ?_, .cons stepped othersRead⟩
      simp [Value.memberTokens, Value.separator, valueEq, restEq, laterEq, afterEq]

/-- An object is read member by member. -/
theorem accepts_object
    (accepts : ∀ state key reader, choose state key = .ok reader →
      Accepts reader (step state key)) (state : State) :
    Accepts (object choose state) fun source read =>
      ∃ members, source = .object members ∧ ReadsMembers step state members read := by
  intro tokens taken accepted
  unfold object at accepted
  split at accepted
  · cases accepted
  · cases accepted
    exact ⟨.object [], rfl, [], rfl, .nil⟩
  · rcases map_eq_ok_iff.mp accepted with ⟨later, laterAccepted, rfl⟩
    rcases exists_members_of_members accepts laterAccepted with ⟨key, value, others, restEq, read⟩
    refine ⟨.object ((some key, value) :: others), ?_, _, rfl, read⟩
    simp [Value.tokens, Value.memberTokens, Value.separator, restEq]
  · cases accepted

/-- A record is read as an array of its fields or as an object. -/
theorem accepts_record {fields : List (State → Reader State)}
    {steps : List (State → Value → State → Prop)}
    (fieldsAccept : List.Forall₂ (fun field step => ∀ state, Accepts (field state) (step state))
      fields steps)
    (membersAccept : ∀ state key reader, choose state key = .ok reader →
      Accepts reader (step state key)) (state : State) :
    Accepts (record fields choose state) fun source read =>
      (∃ items, source = .array items ∧ ReadsItems steps state items read) ∨
        ∃ members, source = .object members ∧ ReadsMembers step state members read := by
  intro tokens taken accepted
  unfold record at accepted
  split at accepted
  · rcases map_eq_ok_iff.mp accepted with ⟨later, laterAccepted, rfl⟩
    rcases exists_items_of_positions fieldsAccept laterAccepted with ⟨items, restEq, read⟩
    exact ⟨.array items, congrArg (Token.openBracket :: ·) restEq, .inl ⟨items, rfl, read⟩⟩
  · rcases accepts_object membersAccept state tokens taken accepted with ⟨source, tokensEq, read⟩
    exact ⟨source, tokensEq, .inr read⟩

end Members

theorem accepts_stringPair :
    Accepts stringPair fun source pair =>
      source = .array [.string (some pair.1), .string (some pair.2)] := by
  have fieldsAccept : ∀ texts : List String,
      Accepts (string.map fun text => texts ++ [text]) fun item next =>
        ∃ text, item = .string (some text) ∧ texts ++ [text] = next :=
    fun texts => accepts_string.map _
  intro tokens taken accepted
  unfold stringPair at accepted
  split at accepted
  · simp only at accepted
    split at accepted
    · cases accepted
    · rename_i first second later shorter takenEq
      cases accepted
      rcases exists_items_of_positions (.cons fieldsAccept (.cons fieldsAccept .nil)) takenEq
          with
        ⟨items, restEq, read⟩
      refine ⟨.array items, congrArg (Token.openBracket :: ·) restEq, ?_⟩
      cases read with
      | cons firstRead read =>
          rcases firstRead with ⟨firstText, rfl, rfl⟩
          cases read with
          | cons secondRead read =>
              rcases secondRead with ⟨secondText, rfl, rfl⟩
              cases read
              rfl
    · cases accepted
  · cases accepted
  · cases accepted

theorem exists_value_of_whole {reader : Reader value} {denotes : Value → value → Prop}
    (accepts : Accepts reader denotes) {text : String} {read : value}
    (accepted : reader.whole text = .ok read) :
    ∃ source : Value, Json.tokens text.toList = source.tokens ∧ denotes source read := by
  unfold whole at accepted
  split at accepted
  · cases accepted
  · rename_i found shorter takenEq
    cases accepted
    rcases accepts _ _ takenEq with ⟨source, tokensEq, denoted⟩
    exact ⟨source, tokensEq.trans (List.append_nil _), denoted⟩
  · cases accepted

end Reader
end Json
end TikzGlyph
