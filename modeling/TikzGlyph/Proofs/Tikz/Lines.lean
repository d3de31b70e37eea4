import TikzGlyph.Proofs.Glyph.PathData
import TikzGlyph.Proofs.Text.Lines
import TikzGlyph.Proofs.Tikz.Writing

/-!
# Lines of written drawings

A writer starts a new line for every directive. No directive has a newline of its own, but path data
goes into a directive as it stands and may bring newlines with it: the lines after these are lines
of the text that no call asked for.
-/

namespace TikzGlyph

namespace Tikz

/-! ## Characters of directives -/

theorem newline_notMem_toDigits (number : Nat) : '\n' ∉ Nat.toDigits 10 number := by
  intro newlineMem
  have digit := Nat.isDigit_of_mem_toDigits (by omega) (by omega) newlineMem
  cases digit

theorem newline_notMem_positionalText {layout : Binary64.Layout} {digits : List Char}
    (noNewline : '\n' ∉ digits) (wholePlain : '\n' ∉ layout.wholeEnd) (point : Int) :
    '\n' ∉ layout.positionalText digits point := by
  unfold Binary64.Layout.positionalText
  split
  · simp [noNewline]
  · split
    · simp [noNewline, wholePlain]
    · intro newlineMem
      rcases List.mem_append.mp newlineMem with inWhole | inFraction
      · exact noNewline (List.mem_of_mem_take inWhole)
      · rcases List.mem_cons.mp inFraction with isPoint | inFraction
        · cases isPoint
        · exact noNewline (List.mem_of_mem_drop inFraction)

/-- A text without newlines. -/
def OneLine (text : String) : Prop := '\n' ∉ text.toList

instance (text : String) : Decidable (OneLine text) := inferInstanceAs (Decidable (¬ _))

theorem OneLine.append {left right : String} (leftOne : OneLine left) (rightOne : OneLine right) :
    OneLine (left ++ right) := by
  simp only [OneLine, String.toList_append, List.mem_append, not_or]
  exact ⟨leftOne, rightOne⟩

theorem oneLine_number (value : Binary64) : OneLine (number value) := by
  rw [OneLine, number, Binary64.text, String.toList_ofList]
  cases value with
  | nan negative payload =>
      change '\n' ∉ Binary64.Layout.directive.nanText
      decide
  | infinite negative => cases negative <;> decide
  | finite negative magnitude =>
      have inDigits := newline_notMem_toDigits (Binary64.shortest .upward magnitude).digits
      have inText : ∀ point, '\n' ∉ Binary64.Layout.directive.positionalText
          (Nat.toDigits 10 (Binary64.shortest .upward magnitude).digits) point := by
        intro point
        exact newline_notMem_positionalText inDigits (by decide) point
      cases negative <;>
        simp [Binary64.Layout.chars, Binary64.Layout.decimalText, Binary64.Layout.directive] <;>
        apply inText

theorem oneLine_colorName (index : Nat) : OneLine (colorName index) := by
  have digits : OneLine index.repr := by
    rw [OneLine, Nat.toList_repr]
    exact newline_notMem_toDigits index
  exact OneLine.append (by decide) digits

theorem oneLine_fillOption (fill : Option Nat) : OneLine (fillOption fill) := by
  cases fill with
  | none => decide
  | some index => exact OneLine.append (by decide) (oneLine_colorName index)

theorem oneLine_hex (color : Color) : OneLine color.hex := by
  have apart : ∀ value : Fin 16, '\n' ≠ hexDigit value := by decide
  simp [OneLine, Color.hex, Color.hexDigits, byteDigits, apart]

theorem oneLine_placementOptions (transform : Transform) :
    OneLine (placementOptions transform) := by
  have numbers : ∀ value, '\n' ∉ (number value).toList := oneLine_number
  simp [OneLine, placementOptions, numbers]

theorem oneLine_openScope {options : String} (oneLine : OneLine options) :
    OneLine (openScope options) := by
  have start : OneLine ("\\begin\x7bscope\x7d[" ++ options) := OneLine.append (by decide) oneLine
  exact start.append (by decide)

theorem oneLine_fillShape (fill : Option Nat) {shape : String} (oneLine : OneLine shape) :
    OneLine (fillShape fill shape) := by
  have start : OneLine ("\\fill[" ++ fillOption fill) :=
    OneLine.append (by decide) (oneLine_fillOption fill)
  exact ((start.append (by decide)).append oneLine).append (by decide)

theorem oneLine_point (x y : Binary64) : OneLine (point x y) := by
  have start : OneLine ("(" ++ number x) := OneLine.append (by decide) (oneLine_number x)
  exact ((start.append (by decide)).append (oneLine_number y)).append (by decide)

/-- Every directive of a call without path data is free of newlines. -/
theorem oneLine_directive {call : Call} (noPath : call.pathData? = none) :
    OneLine (directive call) := by
  cases call with
  | define index color =>
      have start : OneLine ("\\definecolor\x7b" ++ colorName index) :=
        OneLine.append (by decide) (oneLine_colorName index)
      exact ((start.append (by decide)).append (oneLine_hex color)).append (by decide)
  | beginGroup fill =>
      apply oneLine_openScope
      apply oneLine_fillOption
  | beginPlacement transform =>
      apply oneLine_openScope
      apply oneLine_placementOptions
  | endScope => decide
  | circle centerX centerY radius fill =>
      apply oneLine_fillShape
      have start : OneLine (point centerX centerY ++ " circle (") :=
        (oneLine_point centerX centerY).append (by decide)
      exact (start.append (oneLine_number radius)).append (by decide)
  | ellipse centerX centerY radiusX radiusY fill =>
      apply oneLine_fillShape
      have start : OneLine (point centerX centerY ++ " ellipse (") :=
        (oneLine_point centerX centerY).append (by decide)
      have radii : OneLine (point centerX centerY ++ " ellipse (" ++ number radiusX ++ " and ") :=
        (start.append (oneLine_number radiusX)).append (by decide)
      exact (radii.append (oneLine_number radiusY)).append (by decide)
  | path data fill => cases noPath

theorem toList_openScope (options : String) :
    (openScope options).toList =
      "\\begin\x7bscope\x7d[".toList ++ options.toList ++ "]".toList := by
  change ("\\begin\x7bscope\x7d[" ++ options ++ "]").toList = _
  rw [String.toList_append, String.toList_append]

theorem toList_fillShape (fill : Option Nat) (shape : String) :
    (fillShape fill shape).toList =
      "\\fill[".toList ++ (fillOption fill).toList ++ "] ".toList ++ shape.toList ++
        ";".toList := by
  change ("\\fill[" ++ fillOption fill ++ "] " ++ shape ++ ";").toList = _
  rw [String.toList_append, String.toList_append, String.toList_append, String.toList_append]

theorem endsPlainly_directive (call : Call) : EndsPlainly (directive call).toList := by
  have endsScope : ∀ options, EndsPlainly (openScope options).toList := by
    intro options
    exact ⟨_, ']', String.toList_append, by decide, by decide⟩
  have endsShape : ∀ fill shape, EndsPlainly (fillShape fill shape).toList := by
    intro fill shape
    exact ⟨_, ';', String.toList_append, by decide, by decide⟩
  cases call with
  | define index color => exact ⟨_, '}', String.toList_append, by decide, by decide⟩
  | beginGroup fill => apply endsScope
  | beginPlacement transform => apply endsScope
  | endScope => exact ⟨closeScope.toList.dropLast, '}', by decide, by decide, by decide⟩
  | circle centerX centerY radius fill => apply endsShape
  | ellipse centerX centerY radiusX radiusY fill => apply endsShape
  | path data fill => apply endsShape

/-! ## Lines of directives -/

/-- What the directive of a path has before the path data. -/
def pathStart (fill : Option Nat) : String :=
  "\\fill[" ++ fillOption fill ++ "] " ++ "svg \x7b"

theorem oneLine_pathStart (fill : Option Nat) : OneLine (pathStart fill) := by
  have start : OneLine ("\\fill[" ++ fillOption fill) :=
    OneLine.append (by decide) (oneLine_fillOption fill)
  exact (start.append (by decide)).append (by decide)

theorem toList_directive_path (data : String) (fill : Option Nat) :
    (directive (.path data fill)).toList =
      (pathStart fill).toList ++ (data.toList ++ ['}', ';']) := by
  have startEq : (pathStart fill).toList =
      "\\fill[".toList ++ (fillOption fill).toList ++ "] ".toList ++ "svg \x7b".toList := by
    rw [pathStart, String.toList_append, String.toList_append, String.toList_append]
  change (fillShape fill ("svg \x7b" ++ data ++ "\x7d")).toList = _
  rw [toList_fillShape, String.toList_append, String.toList_append, startEq]
  simp only [List.append_assoc]
  rfl

theorem textLines_directive_path (data : String) (fill : Option Nat) :
    textLines (directive (.path data fill)).toList =
      (textLines (data.toList ++ ['}', ';'])).modifyHead ((pathStart fill).toList ++ ·) := by
  have plain : EndsPlainly (pathStart fill).toList := by
    rw [pathStart, String.toList_append]
    apply endsPlainly_append
    exact ⟨"svg ".toList, '\x7b', by decide, by decide, by decide⟩
  rw [toList_directive_path]
  apply textLines_append (oneLine_pathStart fill) plain
  simp

/-- The lines that path data makes after the line on which its directive starts. -/
def spilledLines (data : String) : List (List Char) :=
  (textLines (data.toList ++ ['}', ';'])).tail

def spilledByCall (call : Call) : List (List Char) :=
  call.pathData?.elim [] spilledLines

theorem flatMap_spilledByCall (calls : List Call) :
    calls.flatMap spilledByCall = (calls.filterMap Call.pathData?).flatMap spilledLines := by
  induction calls with
  | nil => rfl
  | cons first rest ih => cases dataEq : first.pathData? <;> simp [spilledByCall, dataEq, ih]

theorem textLines_directive {call : Call} (noPath : call.pathData? = none) :
    textLines (directive call).toList = [(directive call).toList] := by
  rcases endsPlainly_directive call with ⟨start, last, directiveEq, _⟩
  apply textLines_of_notMem (oneLine_directive noPath)
  simp [directiveEq]

theorem oneLine_directive_iff (call : Call) :
    OneLine (directive call) ↔ ∀ data, call.pathData? = some data → OneLine data := by
  cases dataEq : call.pathData? with
  | none => simp [oneLine_directive dataEq]
  | some data =>
      cases call <;> cases dataEq
      next fill =>
      have startOneLine := oneLine_pathStart fill
      rw [OneLine] at startOneLine
      simp [OneLine, toList_directive_path, startOneLine]

/-! ## Lines of texts -/

theorem textLines_appendLine {text : String} (plain : text = "" ∨ EndsPlainly text.toList)
    (line : String) :
    textLines (Writer.appendLine text line).toList =
      textLines text.toList ++ textLines line.toList := by
  rcases plain with rfl | plain
  · rfl
  · have notEmpty : text ≠ "" := by
      rintro rfl
      rcases plain with ⟨start, last, emptyEq, _⟩
      simp at emptyEq
    simp [Writer.appendLine, notEmpty, textLines_append_newline plain]

theorem endsPlainly_appendLine {line : String} (plain : EndsPlainly line.toList) (text : String) :
    EndsPlainly (Writer.appendLine text line).toList := by
  rcases plain with ⟨start, last, lineEq, regular⟩
  unfold Writer.appendLine
  split
  · exact ⟨start, last, lineEq, regular⟩
  · exact ⟨text.toList ++ '\n' :: start, last, by simp [lineEq], regular⟩

theorem textLines_appendCalls {text : String} (plain : text = "" ∨ EndsPlainly text.toList)
    (calls : List Call) :
    textLines (Writer.appendCalls text calls).toList =
      textLines text.toList ++ calls.flatMap fun call => textLines (directive call).toList := by
  induction calls generalizing text with
  | nil => simp [Writer.appendCalls]
  | cons first rest ih =>
      have extended := endsPlainly_appendLine (endsPlainly_directive first) text
      have restLines := ih (Or.inr extended)
      rw [textLines_appendLine plain] at restLines
      rw [List.flatMap_cons, ← List.append_assoc]
      exact restLines

/-- Every directive is one line of the text exactly if no path data has a newline. -/
theorem textLines_eq_directives_iff (calls : List Call) :
    textLines (Writer.appendCalls "" calls).toList =
        calls.map (fun call => (directive call).toList) ↔
      ∀ data ∈ calls.filterMap Call.pathData?, OneLine data := by
  have notEmpty : ∀ text ∈ calls.map (fun call => (directive call).toList), text ≠ [] := by
    intro text textMem
    rcases List.mem_map.mp textMem with ⟨call, _, rfl⟩
    rcases endsPlainly_directive call with ⟨start, last, directiveEq, _⟩
    simp [directiveEq]
  have linesEq : textLines (Writer.appendCalls "" calls).toList =
      (calls.map fun call => (directive call).toList).flatMap textLines := by
    rw [textLines_appendCalls (Or.inl rfl), List.flatMap_map]
    rfl
  rw [linesEq, flatMap_textLines_eq_self_iff notEmpty]
  rw [List.forall_mem_map]
  change (∀ call ∈ calls, OneLine (directive call)) ↔ _
  simp only [oneLine_directive_iff, List.mem_filterMap]
  constructor
  · rintro absent data ⟨call, callMem, dataEq⟩
    exact absent call callMem data dataEq
  · intro absent call callMem data dataEq
    exact absent data ⟨call, callMem, dataEq⟩

end Tikz

end TikzGlyph
