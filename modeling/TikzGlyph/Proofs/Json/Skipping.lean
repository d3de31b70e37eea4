import TikzGlyph.Json.Reader
import TikzGlyph.Proofs.Json.Value
import TikzGlyph.Proofs.Result

/-!
# Skipped tokens are those of a value

A value is skipped token by token with a stack of open containers. What the stack still misses is
what follows in its innermost container, then in the next, and so on. One step takes one token off
that, so the tokens of a whole run are those of one value.
-/

namespace TikzGlyph

namespace Json

open Value

/-- Some tokens are what open containers miss after one of their values. -/
inductive Closes : List Container → List Token → Prop
  | done : Closes [] []
  | array {outer : List Container} {items : List Value} {later : List Token} :
      Closes outer later → Closes (.array :: outer) (itemTokens false items ++ later)
  | object {outer : List Container} {members : List (Option String × Value)}
      {later : List Token} :
      Closes outer later → Closes (.object :: outer) (memberTokens false members ++ later)

namespace Closes

variable {outer : List Container} {later : List Token}

theorem closeBracket (closes : Closes outer later) :
    Closes (.array :: outer) (.closeBracket :: later) :=
  @array outer [] later closes

theorem closeBrace (closes : Closes outer later) :
    Closes (.object :: outer) (.closeBrace :: later) :=
  @object outer [] later closes

theorem comma_item (item : Value) (closes : Closes (.array :: outer) later) :
    Closes (.array :: outer) (.comma :: (item.tokens ++ later)) := by
  cases closes with
  | @array _ items later closes =>
      have closesMore := @array outer (item :: items) later closes
      simpa [itemTokens, separator] using closesMore

theorem comma_member (key : Option String) (value : Value)
    (closes : Closes (.object :: outer) later) :
    Closes (.object :: outer) (.comma :: .string key :: .colon :: (value.tokens ++ later)) := by
  cases closes with
  | @object _ members later closes =>
      have closesMore := @object outer ((key, value) :: members) later closes
      simpa [memberTokens, separator] using closesMore

end Closes

namespace SkipState

/-- Some tokens are the rest of a value of which a part has been skipped. -/
inductive Finishes : SkipState → List Token → Prop
  | value {containers : List Container} {value : Value} {later : List Token} :
      Closes containers later → Finishes ⟨containers, .value⟩ (value.tokens ++ later)
  | valueOrClose {outer : List Container} {items : List Value} {later : List Token} :
      Closes outer later →
        Finishes ⟨.array :: outer, .valueOrClose⟩ (itemTokens true items ++ later)
  | keyOrClose {outer : List Container} {members : List (Option String × Value)}
      {later : List Token} :
      Closes outer later →
        Finishes ⟨.object :: outer, .keyOrClose⟩ (memberTokens true members ++ later)
  | key {outer : List Container} {key : Option String} {value : Value} {later : List Token} :
      Closes (.object :: outer) later →
        Finishes ⟨.object :: outer, .key⟩ (.string key :: .colon :: (value.tokens ++ later))
  | colon {outer : List Container} {value : Value} {later : List Token} :
      Closes (.object :: outer) later →
        Finishes ⟨.object :: outer, .colon⟩ (.colon :: (value.tokens ++ later))
  | commaOrClose {containers : List Container} {later : List Token} :
      Closes containers later → Finishes ⟨containers, .commaOrClose⟩ later

namespace Finishes

variable {outer : List Container} {later : List Token}

theorem no_items (closes : Closes outer later) :
    Finishes ⟨.array :: outer, .valueOrClose⟩ (.closeBracket :: later) :=
  @valueOrClose outer [] later closes

theorem no_members (closes : Closes outer later) :
    Finishes ⟨.object :: outer, .keyOrClose⟩ (.closeBrace :: later) :=
  @keyOrClose outer [] later closes

theorem first_item (item : Value) (closes : Closes (.array :: outer) later) :
    Finishes ⟨.array :: outer, .valueOrClose⟩ (item.tokens ++ later) := by
  cases closes with
  | @array _ items later closes =>
      have whole := @valueOrClose outer (item :: items) later closes
      simpa [itemTokens, separator] using whole

theorem first_member (key : Option String) (value : Value)
    (closes : Closes (.object :: outer) later) :
    Finishes ⟨.object :: outer, .keyOrClose⟩
      (.string key :: .colon :: (value.tokens ++ later)) := by
  cases closes with
  | @object _ members later closes =>
      have whole := @keyOrClose outer ((key, value) :: members) later closes
      simpa [memberTokens, separator] using whole

end Finishes

/-- What may follow fits the innermost container. -/
def IsProper : SkipState → Prop
  | ⟨_, .value⟩ => True
  | ⟨containers, .valueOrClose⟩ => containers.head? = some .array
  | ⟨containers, .keyOrClose⟩ => containers.head? = some .object
  | ⟨containers, .key⟩ => containers.head? = some .object
  | ⟨containers, .colon⟩ => containers.head? = some .object
  | ⟨containers, .commaOrClose⟩ => containers ≠ []

/-- Some tokens are the rest of a value after a step: none if the step has completed it. -/
def Remains : Option SkipState → List Token → Prop
  | none, tokens => tokens = []
  | some next, tokens => next.Finishes tokens

variable {skipping : Skipping} {containers : List Container} {token : Token}
  {outcome : Option SkipState} {tokens : List Token}

/-! ## One step -/

theorem isProper_complete : ∀ next ∈ complete containers, next.IsProper := by
  cases containers <;> simp [complete, IsProper]

theorem closes_of_complete (remains : Remains (complete containers) tokens) :
    Closes containers tokens := by
  cases containers with
  | nil =>
      cases remains
      exact .done
  | cons container outer =>
      cases remains with
      | commaOrClose closes => exact closes

theorem enter_eq_ok {container : Container} {expectation : Expectation}
    (entered : enter skipping containers container expectation = .ok outcome) :
    outcome = some ⟨container :: containers, expectation⟩ := by
  cases skipping with
  | ignored => exact (Except.ok.inj entered).symm
  | checked depth =>
      rw [enter] at entered
      split at entered
      · exact (Except.ok.inj entered).symm
      · cases entered

theorem close_eq_ok {container : Container} (closed : close container containers = .ok outcome) :
    ∃ outer, containers = container :: outer ∧ outcome = complete outer := by
  cases containers with
  | nil => cases closed
  | cons innermost outer =>
      rw [close] at closed
      split at closed
      · rename_i same
        exact ⟨outer, by rw [same], (Except.ok.inj closed).symm⟩
      · cases closed

theorem scalar_eq_ok {readable : Bool} {next : Option SkipState}
    (taken : scalar skipping readable next = .ok outcome) : outcome = next := by
  rw [scalar] at taken
  split at taken
  · exact (Except.ok.inj taken).symm
  · cases taken

theorem fault_ne_ok {wanted skipped : Problem} : fault skipping wanted skipped ≠ .ok outcome := by
  cases skipping <;> simp [fault]

/-- A token where a value is expected starts one, and what remains completes it. -/
theorem stepValue_sound (stepped : stepValue skipping containers token = .ok outcome) :
    (∀ next ∈ outcome, next.IsProper) ∧ ∀ tokens, Remains outcome tokens →
      ∃ value later, token :: tokens = Value.tokens value ++ later ∧ Closes containers later := by
  cases token with
  | openBracket =>
      cases enter_eq_ok stepped
      refine ⟨by simp [IsProper], ?_⟩
      intro tokens remains
      cases remains with
      | @valueOrClose _ items later closes => exact ⟨.array items, later, rfl, closes⟩
  | openBrace =>
      cases enter_eq_ok stepped
      refine ⟨by simp [IsProper], ?_⟩
      intro tokens remains
      cases remains with
      | @keyOrClose _ members later closes => exact ⟨.object members, later, rfl, closes⟩
  | word =>
      cases stepped
      exact ⟨isProper_complete, fun tokens remains =>
        ⟨.word, tokens, rfl, closes_of_complete remains⟩⟩
  | number value =>
      cases scalar_eq_ok stepped
      exact ⟨isProper_complete, fun tokens remains =>
        ⟨.number value, tokens, rfl, closes_of_complete remains⟩⟩
  | string text =>
      cases scalar_eq_ok stepped
      exact ⟨isProper_complete, fun tokens remains =>
        ⟨.string text, tokens, rfl, closes_of_complete remains⟩⟩
  | broken isString wanted skipped => exact absurd stepped fault_ne_ok
  | _ => cases stepped

theorem stepKey_eq_ok (stepped : stepKey skipping containers token = .ok outcome) :
    ∃ key, token = .string key ∧ outcome = some ⟨containers, .colon⟩ := by
  cases token with
  | string text => exact ⟨text, rfl, scalar_eq_ok stepped⟩
  | broken isString wanted skipped =>
      cases isString with
      | true => exact absurd stepped fault_ne_ok
      | false => cases stepped
  | _ => cases stepped

theorem stepComma_sound (nonempty : containers ≠ [])
    (stepped : stepComma containers token = .ok outcome) :
    (∀ next ∈ outcome, next.IsProper) ∧ ∀ tokens, Remains outcome tokens →
      Closes containers (token :: tokens) := by
  cases token with
  | comma =>
      cases stepped
      rcases List.exists_cons_of_ne_nil nonempty with ⟨container, outer, rfl⟩
      cases container with
      | array =>
          refine ⟨by simp [IsProper], ?_⟩
          intro tokens remains
          cases remains with
          | value closes => exact closes.comma_item _
      | object =>
          refine ⟨by simp [IsProper], ?_⟩
          intro tokens remains
          cases remains with
          | key closes => exact closes.comma_member _ _
  | closeBracket =>
      rcases close_eq_ok stepped with ⟨outer, rfl, rfl⟩
      exact ⟨isProper_complete, fun tokens remains => (closes_of_complete remains).closeBracket⟩
  | closeBrace =>
      rcases close_eq_ok stepped with ⟨outer, rfl, rfl⟩
      exact ⟨isProper_complete, fun tokens remains => (closes_of_complete remains).closeBrace⟩
  | _ => cases stepped

theorem step_valueOrClose_sound {outer : List Container}
    (stepped : step skipping ⟨.array :: outer, .valueOrClose⟩ token = .ok outcome) :
    (∀ next ∈ outcome, next.IsProper) ∧ ∀ tokens, Remains outcome tokens →
      Finishes ⟨.array :: outer, .valueOrClose⟩ (token :: tokens) := by
  simp only [step] at stepped
  split at stepped
  · rename_i ends
    subst ends
    rcases close_eq_ok stepped with ⟨_, same, rfl⟩
    cases same
    exact ⟨isProper_complete, fun tokens remains => .no_items (closes_of_complete remains)⟩
  · rcases stepValue_sound stepped with ⟨nextProper, finishes⟩
    refine ⟨nextProper, ?_⟩
    intro tokens remains
    rcases finishes tokens remains with ⟨item, later, tokensEq, closes⟩
    rw [tokensEq]
    exact .first_item item closes

theorem step_keyOrClose_sound {outer : List Container}
    (stepped : step skipping ⟨.object :: outer, .keyOrClose⟩ token = .ok outcome) :
    (∀ next ∈ outcome, next.IsProper) ∧ ∀ tokens, Remains outcome tokens →
      Finishes ⟨.object :: outer, .keyOrClose⟩ (token :: tokens) := by
  simp only [step] at stepped
  split at stepped
  · rename_i ends
    subst ends
    rcases close_eq_ok stepped with ⟨_, same, rfl⟩
    cases same
    exact ⟨isProper_complete, fun tokens remains => .no_members (closes_of_complete remains)⟩
  · rcases stepKey_eq_ok stepped with ⟨key, rfl, rfl⟩
    refine ⟨by simp [IsProper], ?_⟩
    intro tokens remains
    cases remains with
    | colon closes => exact .first_member key _ closes

/-- A step takes one token off the rest of a value. -/
theorem step_sound {state : SkipState} (proper : state.IsProper)
    (stepped : state.step skipping token = .ok outcome) :
    (∀ next ∈ outcome, next.IsProper) ∧
      ∀ tokens, Remains outcome tokens → state.Finishes (token :: tokens) := by
  rcases state with ⟨containers, expectation⟩
  cases expectation with
  | value =>
      rcases stepValue_sound stepped with ⟨nextProper, finishes⟩
      refine ⟨nextProper, ?_⟩
      intro tokens remains
      rcases finishes tokens remains with ⟨value, later, tokensEq, closes⟩
      rw [tokensEq]
      exact .value closes
  | valueOrClose =>
      rcases List.head?_eq_some_iff.mp proper with ⟨outer, rfl⟩
      exact step_valueOrClose_sound stepped
  | keyOrClose =>
      rcases List.head?_eq_some_iff.mp proper with ⟨outer, rfl⟩
      exact step_keyOrClose_sound stepped
  | key =>
      rcases List.head?_eq_some_iff.mp proper with ⟨outer, rfl⟩
      rcases stepKey_eq_ok stepped with ⟨key, rfl, rfl⟩
      refine ⟨by simp [IsProper], ?_⟩
      intro tokens remains
      cases remains with
      | colon closes => exact .key closes
  | colon =>
      rcases List.head?_eq_some_iff.mp proper with ⟨outer, rfl⟩
      simp only [step] at stepped
      split at stepped
      · rename_i colonEq
        subst colonEq
        cases stepped
        refine ⟨by simp [IsProper], ?_⟩
        intro tokens remains
        cases remains with
        | value closes => exact .colon closes
      · cases stepped
  | commaOrClose =>
      rcases stepComma_sound proper stepped with ⟨nextProper, closes⟩
      exact ⟨nextProper, fun tokens remains => .commaOrClose (closes tokens remains)⟩

end SkipState

/-! ## Whole values -/

namespace Reader

open SkipState

variable {skipping : Skipping} {tokens : List Token}

/-- The tokens of a run are the rest of a value. -/
theorem exists_finishes_of_skipFrom {state : SkipState} {taken : Taken tokens Unit}
    (proper : state.IsProper) (skipped : skipFrom skipping state tokens = .ok taken) :
    ∃ read, tokens = read ++ taken.rest ∧ state.Finishes read := by
  induction tokens generalizing state with
  | nil => cases skipped
  | cons token rest ih =>
      rw [skipFrom] at skipped
      cases stepped : state.step skipping token with
      | error problem =>
          rw [stepped] at skipped
          cases skipped
      | ok outcome =>
          rcases step_sound proper stepped with ⟨nextProper, finishes⟩
          rw [stepped] at skipped
          cases outcome with
          | none =>
              cases skipped
              exact ⟨[token], rfl, finishes [] rfl⟩
          | some next =>
              rcases map_eq_ok_iff.mp skipped with ⟨others, othersSkipped, rfl⟩
              rcases ih (nextProper next rfl) othersSkipped with ⟨read, restEq, nextFinishes⟩
              exact ⟨token :: read, congrArg (token :: ·) restEq, finishes read nextFinishes⟩

theorem exists_value_of_skipFrom {taken : Taken tokens Unit}
    (skipped : skipFrom skipping .start tokens = .ok taken) :
    ∃ value : Value, tokens = value.tokens ++ taken.rest := by
  have proper : SkipState.start.IsProper := trivial
  rcases exists_finishes_of_skipFrom proper skipped with ⟨read, tokensEq, finishes⟩
  cases finishes with
  | @value _ value later closes =>
      cases closes
      exact ⟨value, tokensEq.trans (by rw [List.append_nil])⟩

end Reader

end Json

end TikzGlyph
