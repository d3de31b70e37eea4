import TikzGlyph.Json.Number
import TikzGlyph.Json.Quoted
import TikzGlyph.Text.Blank
import TikzGlyph.Text.ByteLength

/-!
# JSON tokens

A JSON text is split into punctuation, words, numbers and strings. The list ends where the text ends
or where no token can be read; in the second case its last token says what is wrong there. Some
values can be skipped but not read: numbers out of range and strings with unpaired surrogates. A
fault may therefore be another one for a reader that wants the value than for one that skips it.
-/

namespace TikzGlyph

namespace Json

/-- What is wrong with a JSON text. -/
inductive Problem
  /-- It is not JSON. -/
  | malformed
  /-- It is JSON, but not of the wanted form. -/
  | mismatched
  /-- It ends too early. -/
  | unfinished
deriving DecidableEq, Repr

inductive Token
  | openBrace
  | closeBrace
  | openBracket
  | closeBracket
  | comma
  | colon
  /-- One of the words `null`, `true` and `false`. -/
  | word
  /-- A number, or nothing if it is out of range. -/
  | number (value : Option Binary64)
  /-- A string, or nothing if it has an unpaired surrogate. -/
  | string (value : Option String)
  /-- A place where no token can be read, with the problem for a reader that wants the value and for
  one that skips it. The flag says whether it begins as a string. -/
  | broken (isString : Bool) (wanted skipped : Problem)
deriving DecidableEq, Repr

namespace Token

/-- The problem of a token where another kind of value is wanted. -/
def problem : Token → Problem
  | .openBrace => .mismatched
  | .openBracket => .mismatched
  | .word => .mismatched
  | .number (some _) => .mismatched
  | .string (some _) => .mismatched
  | .broken _ wanted _ => wanted
  | _ => .malformed

end Token

/-- A token and the rest of the text, if the text goes on. -/
structure Lexeme where
  token : Token
  rest : List Char

def Lexeme.broken (isString : Bool) (wanted skipped : Problem) : Lexeme :=
  ⟨.broken isString wanted skipped, []⟩

/-- A fault inside a string. An unpaired surrogate before it comes first for a reader that wants the
string. -/
def StringReading.broken (reading : StringReading) (fault : Problem) : Lexeme :=
  .broken true (if reading.found.isNone then .malformed else fault) fault

/-- Reads a string from after its opening quote. -/
def stringFrom (reading : StringReading) : List Char → Lexeme
  | [] => reading.broken .unfinished
  | ['\\'] => reading.broken .unfinished
  | '\\' :: 'u' :: first :: second :: third :: fourth :: rest =>
      match unit? [first, second, third, fourth] with
      | some unit => stringFrom (reading.appendUnit unit) rest
      | none => reading.broken .malformed
  | '\\' :: 'u' :: rest =>
      reading.broken (if byteLength rest < 4 then .unfinished else .malformed)
  | '\\' :: mark :: rest =>
      match escaped? mark with
      | some character => stringFrom (reading.append character) rest
      | none => reading.broken .malformed
  | character :: rest =>
      if character = '\x22' then ⟨.string reading.text?, rest⟩
      else if character.toNat < 0x20 then reading.broken .malformed
      else stringFrom (reading.append character) rest

/-- Reads the exponent of a number from after its mark. -/
def exponentFrom (negative : Bool) (significand : Significand) (text : List Char) : Lexeme :=
  let (minus, unsigned) := Numeral.spanSign text
  let (digits, rest) := Numeral.spanDigits unsigned
  if digits = [] then
    if unsigned = [] then .broken false .unfinished .malformed
    else .broken false .malformed .malformed
  else
    let exponent : Int := Numeral.ofDigits digits
    ⟨.number (number? negative significand (if minus then -exponent else exponent)), rest⟩

/-- Reads the end of a number whose digits have been read. -/
def afterDigits (negative : Bool) (significand : Significand) : List Char → Lexeme
  | [] => ⟨.number (number? negative significand 0), []⟩
  | mark :: rest =>
      if mark = 'e' ∨ mark = 'E' then exponentFrom negative significand rest
      else ⟨.number (number? negative significand 0), mark :: rest⟩

/-- Reads the end of a number whose whole digits have been read. -/
def afterWhole (negative : Bool) (whole : List Char) : List Char → Lexeme
  | '.' :: text =>
      let (fraction, rest) := Numeral.spanDigits text
      if fraction = [] then
        if rest = [] then .broken false .unfinished .malformed
        else .broken false .malformed .malformed
      else afterDigits negative (.ofDigits whole fraction) rest
  | text => afterDigits negative (.ofDigits whole []) text

/-- Reads a number from after its sign. A zero at its start is its only whole digit. -/
def numberFrom (negative : Bool) (text : List Char) : Lexeme :=
  let (whole, rest) := Numeral.spanDigits text
  if whole = [] then
    if rest = [] then .broken false .unfinished .malformed
    else .broken false .malformed .malformed
  else if whole.head? = some '0' ∧ 1 < whole.length then .broken false .malformed .malformed
  else afterWhole negative whole rest

/-- Reads the rest of a word. -/
def wordFrom : (missing : List Char) → List Char → Lexeme
  | [], text => ⟨.word, text⟩
  | _ :: _, [] => .broken false .unfinished .unfinished
  | expected :: missing, character :: rest =>
      if character = expected then wordFrom missing rest
      else .broken false .malformed .malformed

/-- Reads the token that starts with a character. -/
def lexeme (character : Char) (rest : List Char) : Lexeme :=
  match character with
  | '\x7b' => ⟨.openBrace, rest⟩
  | '\x7d' => ⟨.closeBrace, rest⟩
  | '[' => ⟨.openBracket, rest⟩
  | ']' => ⟨.closeBracket, rest⟩
  | ',' => ⟨.comma, rest⟩
  | ':' => ⟨.colon, rest⟩
  | '\x22' => stringFrom .start rest
  | 'n' => wordFrom ['u', 'l', 'l'] rest
  | 't' => wordFrom ['r', 'u', 'e'] rest
  | 'f' => wordFrom ['a', 'l', 's', 'e'] rest
  | '-' => numberFrom true rest
  | _ =>
      if character.isDigit then numberFrom false (character :: rest)
      else .broken false .malformed .malformed

/-! A token takes at least one character. -/

theorem length_dropWhile_le {value : Type} (test : value → Bool) (list : List value) :
    (list.dropWhile test).length ≤ list.length :=
  (List.dropWhile_suffix test).length_le

theorem length_spanDigits_le (text : List Char) :
    (Numeral.spanDigits text).2.length ≤ text.length :=
  length_dropWhile_le _ _

theorem length_spanSign_le (text : List Char) :
    (Numeral.spanSign text).2.length ≤ text.length := by
  unfold Numeral.spanSign
  split <;> simp

theorem length_stringFrom_le (reading : StringReading) (text : List Char) :
    (stringFrom reading text).rest.length ≤ text.length := by
  fun_induction stringFrom reading text <;>
    simp_all [StringReading.broken, Lexeme.broken] <;> omega

theorem length_exponentFrom_le (negative : Bool) (significand : Significand) (text : List Char) :
    (exponentFrom negative significand text).rest.length ≤ text.length := by
  have signed := length_spanSign_le text
  have digits := length_spanDigits_le (Numeral.spanSign text).2
  unfold exponentFrom
  simp only
  split
  · split <;> simp [Lexeme.broken]
  · simp only
    omega

theorem length_afterDigits_le (negative : Bool) (significand : Significand) (text : List Char) :
    (afterDigits negative significand text).rest.length ≤ text.length := by
  unfold afterDigits
  split
  · simp
  · rename_i mark rest
    split
    · have := length_exponentFrom_le negative significand rest
      simp only [List.length_cons]
      omega
    · simp

theorem length_afterWhole_le (negative : Bool) (whole text : List Char) :
    (afterWhole negative whole text).rest.length ≤ text.length := by
  unfold afterWhole
  split
  · rename_i text
    have digits := length_spanDigits_le text
    simp only
    split
    · split <;> simp [Lexeme.broken]
    · have := length_afterDigits_le negative
        (.ofDigits whole (Numeral.spanDigits text).1) (Numeral.spanDigits text).2
      simp only [List.length_cons]
      omega
  · exact length_afterDigits_le _ _ _

theorem length_numberFrom_lt (negative : Bool) (text : List Char) (nonempty : text ≠ []) :
    (numberFrom negative text).rest.length < text.length := by
  have positive : 0 < text.length := List.length_pos_iff.mpr nonempty
  unfold numberFrom
  simp only
  split
  · split <;> simpa [Lexeme.broken] using positive
  · rename_i digits
    split
    · simpa [Lexeme.broken] using positive
    · have after := length_afterWhole_le negative
        (Numeral.spanDigits text).1 (Numeral.spanDigits text).2
      have splitLength := congrArg List.length
        (List.takeWhile_append_dropWhile (p := Char.isDigit) (l := text))
      have digitsPositive : 0 < (Numeral.spanDigits text).1.length :=
        List.length_pos_iff.mpr digits
      simp only [Numeral.spanDigits, List.length_append] at *
      omega

theorem length_wordFrom_le (missing text : List Char) :
    (wordFrom missing text).rest.length ≤ text.length := by
  fun_induction wordFrom missing text with
  | case1 => exact Nat.le_refl _
  | case2 => simp [Lexeme.broken]
  | case3 missing character rest ih =>
      simp only [List.length_cons]
      omega
  | case4 => simp [Lexeme.broken]

theorem length_lexeme_le (character : Char) (rest : List Char) :
    (lexeme character rest).rest.length ≤ rest.length := by
  unfold lexeme
  split
  case h_7 => exact length_stringFrom_le _ _
  case h_8 => exact length_wordFrom_le _ _
  case h_9 => exact length_wordFrom_le _ _
  case h_10 => exact length_wordFrom_le _ _
  case h_11 =>
    cases rest with
    | nil => simp [numberFrom, Numeral.spanDigits, Lexeme.broken]
    | cons first others =>
        exact Nat.le_of_lt (length_numberFrom_lt true (first :: others) (by simp))
  case h_12 =>
    split
    · have := length_numberFrom_lt false (character :: rest) (by simp)
      simp only [List.length_cons] at this
      omega
    · simp [Lexeme.broken]
  all_goals exact Nat.le_refl _

def tokens : List Char → List Token
  | [] => []
  | character :: rest =>
      if isSpace character then tokens rest
      else (lexeme character rest).token :: tokens (lexeme character rest).rest
termination_by text => text.length
decreasing_by
  · simp
  · have := length_lexeme_le character rest
    simp only [List.length_cons]
    omega

end Json

end TikzGlyph
