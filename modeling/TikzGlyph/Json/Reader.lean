import TikzGlyph.Json.Token

/-!
# Reading typed values from tokens

A reader takes the tokens of one value from the front of a list and gives the value, or the first
problem from left to right. Every reader takes at least one token, so lists of values of any length
can be read. Objects and records are read member by member into a state; values that nobody wants
are skipped.
-/

namespace TikzGlyph

namespace Json

/-- A value read from tokens, and the tokens after it. -/
structure Taken (tokens : List Token) (value : Type) where
  value : value
  rest : List Token
  shorter : rest.length < tokens.length

/-- Reads a value from the front of a list of tokens. -/
abbrev Reader (value : Type) := (tokens : List Token) → Except Problem (Taken tokens value)

namespace Taken

variable {value result : Type} {tokens : List Token}

/-- The same tokens for another value. -/
def map (change : value → result) (taken : Taken tokens value) : Taken tokens result :=
  ⟨change taken.value, taken.rest, taken.shorter⟩

/-- The same value when further tokens stand in front. -/
def widen {more : List Token} (taken : Taken tokens value) (longer : tokens.length ≤ more.length) :
    Taken more value :=
  ⟨taken.value, taken.rest, Nat.lt_of_lt_of_le taken.shorter longer⟩

end Taken

namespace Reader

variable {value result State : Type}

/-- Reads another value off the one that was read. -/
def map (change : value → result) (reader : Reader value) : Reader result :=
  fun tokens => (reader tokens).map (Taken.map change)

/-- Reads a value of one token. -/
def scalar (select : Token → Option value) : Reader value
  | [] => .error .unfinished
  | token :: rest =>
      match select token with
      | some value => .ok ⟨value, rest, by simp⟩
      | none => .error token.problem

def string : Reader String :=
  scalar fun
    | .string text => text
    | _ => none

def number : Reader Binary64 :=
  scalar fun
    | .number value => value
    | _ => none

/-- Reads the values of an array up to its closing bracket; there is at least one. -/
def elements (element : Reader value) (tokens : List Token) :
    Except Problem (Taken tokens (List value)) :=
  match element tokens with
  | .error problem => .error problem
  | .ok ⟨_, [], _⟩ => .error .unfinished
  | .ok ⟨first, .closeBracket :: rest, shorter⟩ =>
      .ok ⟨[first], rest, by simp only [List.length_cons] at shorter; omega⟩
  | .ok ⟨first, .comma :: rest, shorter⟩ =>
      have smaller : rest.length < tokens.length := by
        simp only [List.length_cons] at shorter
        omega
      (elements element rest).map fun others =>
        (others.map (first :: ·)).widen (Nat.le_of_lt smaller)
  | .ok _ => .error .malformed
termination_by tokens.length

/-- Reads an array of values of one kind. -/
def array (element : Reader value) : Reader (List value)
  | [] => .error .unfinished
  | .openBracket :: .closeBracket :: rest => .ok ⟨[], rest, by simp only [List.length_cons]; omega⟩
  | .openBracket :: rest => (elements element rest).map (·.widen (by simp))
  | token :: _ => .error token.problem

/-- Reads the values of an array of fixed length into a state, up to its closing bracket. An array
that ends early leaves the remaining values out, and one that goes on is malformed. -/
def positions : (first : Bool) → List (State → Reader State) → State → Reader State
  | _, [], state, tokens =>
      match tokens with
      | [] => .error .unfinished
      | .closeBracket :: rest => .ok ⟨state, rest, by simp⟩
      | _ => .error .malformed
  | first, field :: others, state, tokens =>
      match tokens with
      | [] => .error .unfinished
      | .closeBracket :: rest => .ok ⟨state, rest, by simp⟩
      | .comma :: rest =>
          if first then .error .malformed
          else
            (field state rest).bind fun taken =>
              (positions false others taken.value taken.rest).map
                (·.widen (by have := taken.shorter; simp only [List.length_cons]; omega))
      | token :: rest =>
          if first then
            (field state (token :: rest)).bind fun taken =>
              (positions false others taken.value taken.rest).map
                (·.widen (Nat.le_of_lt taken.shorter))
          else .error .malformed

/-- Reads the members of an object into a state, up to its closing brace; there is at least one.
The key of a member chooses the reader of its value. -/
def members (choose : State → String → Except Problem (Reader State)) (state : State)
    (tokens : List Token) : Except Problem (Taken tokens State) :=
  match tokens with
  | [] => .error .unfinished
  | .broken true wanted _ :: _ => .error wanted
  | .string (some key) :: afterKey =>
      match choose state key with
      | .error problem => .error problem
      | .ok reader =>
          match afterKey with
          | [] => .error .unfinished
          | .colon :: valueTokens =>
              match reader valueTokens with
              | .error problem => .error problem
              | .ok ⟨_, [], _⟩ => .error .unfinished
              | .ok ⟨next, .closeBrace :: rest, shorter⟩ =>
                  .ok ⟨next, rest, by simp only [List.length_cons] at *; omega⟩
              | .ok ⟨next, .comma :: rest, shorter⟩ =>
                  have smaller : rest.length < valueTokens.length := by
                    simp only [List.length_cons] at shorter
                    omega
                  (members choose next rest).map
                    (·.widen (by simp only [List.length_cons]; omega))
              | .ok _ => .error .malformed
          | _ => .error .malformed
  | _ => .error .malformed
termination_by tokens.length
decreasing_by simp only [List.length_cons] at *; omega

/-- Reads an object into a state. -/
def object (choose : State → String → Except Problem (Reader State)) (state : State) :
    Reader State
  | [] => .error .unfinished
  | .openBrace :: .closeBrace :: rest => .ok ⟨state, rest, by simp only [List.length_cons]; omega⟩
  | .openBrace :: rest => (members choose state rest).map (·.widen (by simp))
  | token :: _ => .error token.problem

/-- Reads a record into a state: an object, or an array of the values of its fields. -/
def record (fields : List (State → Reader State))
    (choose : State → String → Except Problem (Reader State)) (state : State) : Reader State
  | .openBracket :: rest => (positions true fields state rest).map (·.widen (by simp))
  | tokens => object choose state tokens

/-- Reads an array of exactly two strings. -/
def stringPair : Reader (String × String)
  | .openBracket :: rest =>
      let field (texts : List String) : Reader (List String) :=
        string.map fun text => texts ++ [text]
      match positions true [field, field] [] rest with
      | .error problem => .error problem
      | .ok ⟨[first, second], rest', shorter⟩ =>
          .ok ⟨(first, second), rest', by simp only [List.length_cons]; omega⟩
      | .ok _ => .error .mismatched
  | [] => .error .unfinished
  | token :: _ => .error token.problem

/-- Reads a value that takes up a whole text. -/
def whole (reader : Reader value) (text : String) : Except Problem value :=
  match reader (tokens text.toList) with
  | .error problem => .error problem
  | .ok ⟨value, [], _⟩ => .ok value
  | .ok _ => .error .malformed

end Reader

/-! ## Skipped values -/

/-- How a value is skipped. -/
inductive Skipping
  /-- Nobody wants the value, so it may nest deeply and hold values that cannot be read. -/
  | ignored
  /-- The value is read and dropped, and arrays and objects in it may nest so deep. -/
  | checked (depth : Nat)
deriving DecidableEq, Repr

/-- An array or an object that has been opened. -/
inductive Container
  | array
  | object
deriving DecidableEq, Repr

/-- What may follow inside a skipped value. -/
inductive Expectation
  | value
  | valueOrClose
  | keyOrClose
  | key
  | colon
  | commaOrClose
deriving DecidableEq, Repr

/-- A value of which a part has been skipped: the open containers, innermost first, and what may
follow. -/
structure SkipState where
  containers : List Container
  expectation : Expectation
deriving DecidableEq, Repr

namespace SkipState

def start : SkipState := ⟨[], .value⟩

/-- A value inside some containers is complete. Outside all containers that ends skipping. -/
def complete : List Container → Option SkipState
  | [] => none
  | containers => some ⟨containers, .commaOrClose⟩

def enter (skipping : Skipping) (containers : List Container) (container : Container)
    (expectation : Expectation) : Except Problem (Option SkipState) :=
  match skipping with
  | .ignored => .ok (some ⟨container :: containers, expectation⟩)
  | .checked depth =>
      if containers.length < depth then .ok (some ⟨container :: containers, expectation⟩)
      else .error .malformed

def close (container : Container) : List Container → Except Problem (Option SkipState)
  | innermost :: outer =>
      if innermost = container then .ok (complete outer) else .error .malformed
  | [] => .error .malformed

/-- A scalar that may be one that cannot be read. -/
def scalar (skipping : Skipping) (readable : Bool) (next : Option SkipState) :
    Except Problem (Option SkipState) :=
  if readable ∨ skipping = .ignored then .ok next else .error .malformed

/-- A place where no token can be read. -/
def fault (skipping : Skipping) (wanted skipped : Problem) : Except Problem (Option SkipState) :=
  match skipping with
  | .ignored => .error skipped
  | .checked _ => .error wanted

/-- A token where a value is expected. -/
def stepValue (skipping : Skipping) (containers : List Container) :
    Token → Except Problem (Option SkipState)
  | .openBracket => enter skipping containers .array .valueOrClose
  | .openBrace => enter skipping containers .object .keyOrClose
  | .word => .ok (complete containers)
  | .number value => scalar skipping value.isSome (complete containers)
  | .string text => scalar skipping text.isSome (complete containers)
  | .broken _ wanted skipped => fault skipping wanted skipped
  | _ => .error .malformed

/-- A token where a key is expected. -/
def stepKey (skipping : Skipping) (containers : List Container) :
    Token → Except Problem (Option SkipState)
  | .string text => scalar skipping text.isSome (some ⟨containers, .colon⟩)
  | .broken true wanted skipped => fault skipping wanted skipped
  | _ => .error .malformed

/-- A token after a value in a container. -/
def stepComma (containers : List Container) : Token → Except Problem (Option SkipState)
  | .comma =>
      let expectation := if containers.head? = some .object then .key else .value
      .ok (some ⟨containers, expectation⟩)
  | .closeBracket => close .array containers
  | .closeBrace => close .object containers
  | _ => .error .malformed

/-- Skips one more token; the result is nothing when the value is complete. -/
def step (skipping : Skipping) (state : SkipState) (token : Token) :
    Except Problem (Option SkipState) :=
  match state.expectation with
  | .value => stepValue skipping state.containers token
  | .valueOrClose =>
      if token = .closeBracket then close .array state.containers
      else stepValue skipping state.containers token
  | .keyOrClose =>
      if token = .closeBrace then close .object state.containers
      else stepKey skipping state.containers token
  | .key => stepKey skipping state.containers token
  | .colon =>
      if token = .colon then .ok (some ⟨state.containers, .value⟩) else .error .malformed
  | .commaOrClose => stepComma state.containers token

end SkipState

namespace Reader

/-- Skips the rest of a value. -/
def skipFrom (skipping : Skipping) : SkipState → Reader Unit
  | _, [] => .error .unfinished
  | state, token :: rest =>
      match state.step skipping token with
      | .error problem => .error problem
      | .ok none => .ok ⟨(), rest, by simp⟩
      | .ok (some next) => (skipFrom skipping next rest).map (·.widen (by simp))

/-- Skips a value that nobody wants. -/
def ignored : Reader Unit := skipFrom .ignored .start

/-- Reads a value of any kind, in which arrays and objects may nest so deep. Only a number is
kept. -/
def anything (depth : Nat) : Reader (Option Binary64) := fun tokens =>
  let kept :=
    match tokens with
    | .number value :: _ => value
    | _ => none
  (skipFrom (.checked depth) .start tokens).map (Taken.map fun _ => kept)

end Reader

end Json

end TikzGlyph
