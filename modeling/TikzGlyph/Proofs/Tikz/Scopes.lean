import TikzGlyph.Proofs.Drawing.Recording
import TikzGlyph.Proofs.Tikz.Lines

/-!
# Scopes in the lines of written drawings

The scopes of a placed glyph, counted as a reader of the text counts them, line by line. The lines
open and close the scopes of the calls and no others exactly if no path data spills a line that
looks like the start or the end of a scope: calls and lines both match up, so their difference,
which is what the spilled lines open and close, has to be nothing.
-/

namespace TikzGlyph

/-! ## Scopes that calls open and close -/

def Call.opensScope : Call → Bool
  | .beginGroup _ => true
  | .beginPlacement _ => true
  | _ => false

def Call.closesScope : Call → Bool
  | .endScope => true
  | _ => false

def Stroke.opensScope (stroke : Stroke) : Bool := (stroke.withArgument none).opensScope

namespace Tikz

/-- The number of open scopes after something that may open or close one, unless it closes a scope
and none is open. -/
def scopesAfter? (opens closes : Bool) (depth : Nat) : Option Nat :=
  if opens then some (depth + 1)
  else if closes then (if depth = 0 then none else some (depth - 1))
  else some depth

theorem Writer.depthAfter?_eq (depth : Nat) (call : Call) :
    depthAfter? depth call = scopesAfter? call.opensScope call.closesScope depth := by
  cases call <;> rfl

/-- A run through scopes opens as many as it closes, apart from those left open. -/
theorem countP_of_foldlM_scopesAfter? {item : Type} {opens closes : item → Bool}
    (apart : ∀ current, opens current = true → closes current = false) {items : List item}
    {depth final : Nat}
    (scanned : items.foldlM (fun depth current =>
      scopesAfter? (opens current) (closes current) depth) depth = some final) :
    depth + items.countP opens = final + items.countP closes := by
  induction items generalizing depth with
  | nil =>
      cases scanned
      rfl
  | cons first rest ih =>
      rw [List.foldlM_cons] at scanned
      rcases Option.bind_eq_some_iff.mp scanned with ⟨next, stepped, scanned⟩
      have counted := ih scanned
      rw [List.countP_cons, List.countP_cons]
      cases opening : opens first with
      | true =>
          rw [scopesAfter?, opening] at stepped
          cases stepped
          simp [apart first opening]
          omega
      | false =>
          cases closing : closes first with
          | true =>
              simp only [scopesAfter?, opening, closing, Bool.false_eq_true, if_false, if_true,
                Option.ite_none_left_eq_some, Option.some.injEq] at stepped
              simp
              omega
          | false =>
              rw [scopesAfter?, opening, closing] at stepped
              cases stepped
              simpa using counted

/-! ## Scopes that lines show -/

/-- A line looks like the start of a scope, whatever follows on the line. -/
def lineOpensScope (line : List Char) : Bool :=
  "\\begin\x7bscope\x7d".toList.isPrefixOf line

/-- A line looks like the end of a scope. -/
def lineClosesScope (line : List Char) : Bool :=
  line == closeScope.toList

/-- The number of open scopes after a line, as far as the line shows. -/
def depthAfterLine? (depth : Nat) (line : List Char) : Option Nat :=
  scopesAfter? (lineOpensScope line) (lineClosesScope line) depth

/-- As far as its lines show, a text opens a number of scopes, closes each of them and closes
nothing else. -/
structure ShowsScopes (text : String) (count : Nat) : Prop where
  closed : (textLines text.toList).foldlM depthAfterLine? 0 = some 0
  opened : (textLines text.toList).countP lineOpensScope = count

theorem lineClosesScope_of_lineOpensScope (line : List Char)
    (opens : lineOpensScope line = true) : lineClosesScope line = false := by
  rcases List.isPrefixOf_iff_prefix.mp opens with ⟨rest, rfl⟩
  rfl

/-! ## Lines of calls -/

/-- The line on which the directive of a call starts shows what the call does to scopes. -/
structure Starts (call : Call) (line : List Char) : Prop where
  opens_eq : lineOpensScope line = call.opensScope
  closes_eq : lineClosesScope line = call.closesScope

theorem starts_openScope {call : Call} {options : String} (opens : call.opensScope = true)
    (noClose : call.closesScope = false) : Starts call (openScope options).toList := by
  rw [toList_openScope]
  exact ⟨opens.symm, noClose.symm⟩

theorem starts_fillShape {call : Call} {fill : Option Nat} {shape : String}
    (noOpen : call.opensScope = false) (noClose : call.closesScope = false) :
    Starts call (fillShape fill shape).toList := by
  rw [toList_fillShape]
  exact ⟨noOpen.symm, noClose.symm⟩

theorem starts_directive {call : Call} (noPath : call.pathData? = none) :
    Starts call (directive call).toList := by
  cases call with
  | define index color =>
      change Starts _ (_ ++ _ ++ _ ++ _ ++ _ : String).toList
      simp only [String.toList_append]
      exact ⟨rfl, rfl⟩
  | beginGroup fill => exact starts_openScope rfl rfl
  | beginPlacement transform => exact starts_openScope rfl rfl
  | endScope => exact ⟨rfl, rfl⟩
  | circle centerX centerY radius fill => exact starts_fillShape rfl rfl
  | ellipse centerX centerY radiusX radiusY fill => exact starts_fillShape rfl rfl
  | path data fill => cases noPath

/-- The lines of a directive are one that shows what the call does to scopes, and those that its
path data spills. -/
theorem exists_textLines_directive (call : Call) :
    ∃ first, textLines (directive call).toList = first :: spilledByCall call ∧
      Starts call first := by
  cases dataEq : call.pathData? with
  | none =>
      refine ⟨_, ?_, starts_directive dataEq⟩
      simp [textLines_directive dataEq, spilledByCall, dataEq]
  | some data =>
      cases call <;> cases dataEq
      next fill =>
      have notEmpty : data.toList ++ ['}', ';'] ≠ [] := by simp
      rcases exists_textLines_eq_cons notEmpty with ⟨first, linesEq⟩
      have starts : Starts (.path data fill) ((pathStart fill).toList ++ first) := by
        rw [pathStart, String.toList_append, String.toList_append, String.toList_append]
        exact ⟨rfl, rfl⟩
      refine ⟨_, ?_, starts⟩
      rw [textLines_directive_path, linesEq]
      rfl

theorem countP_textLines {onLine : List Char → Bool} {onCall : Call → Bool}
    (agree : ∀ {call line}, Starts call line → onLine line = onCall call) (calls : List Call) :
    (calls.flatMap fun call => textLines (directive call).toList).countP onLine =
      calls.countP onCall + (calls.flatMap spilledByCall).countP onLine := by
  induction calls with
  | nil => rfl
  | cons first rest ih =>
      rcases exists_textLines_directive first with ⟨line, linesEq, starts⟩
      simp only [List.flatMap_cons, List.countP_append, List.countP_cons, linesEq, ih,
        agree starts]
      omega

theorem foldlM_depthAfterLine?_of_plain {lines : List (List Char)}
    (plain : ∀ line ∈ lines, lineOpensScope line = false ∧ lineClosesScope line = false)
    (depth : Nat) :
    lines.foldlM depthAfterLine? depth = some depth := by
  induction lines with
  | nil => rfl
  | cons first rest ih =>
      rw [List.forall_mem_cons] at plain
      simp only [List.foldlM_cons, depthAfterLine?, plain.1, scopesAfter?]
      exact ih plain.2

/-- If no path data spills a line that looks like one of a scope, the lines keep track of the open
scopes as the calls do. -/
theorem foldlM_textLines {calls : List Call}
    (plain : ∀ line ∈ calls.flatMap spilledByCall,
      lineOpensScope line = false ∧ lineClosesScope line = false) (depth : Nat) :
    (calls.flatMap fun call => textLines (directive call).toList).foldlM depthAfterLine? depth =
      calls.foldlM Writer.depthAfter? depth := by
  induction calls generalizing depth with
  | nil => rfl
  | cons first rest ih =>
      rw [List.flatMap_cons, List.forall_mem_append] at plain
      rcases exists_textLines_directive first with ⟨line, linesEq, starts⟩
      rw [List.flatMap_cons, List.foldlM_append, linesEq, List.foldlM_cons, List.foldlM_cons,
        depthAfterLine?, starts.opens_eq, starts.closes_eq, ← Writer.depthAfter?_eq]
      cases stepped : Writer.depthAfter? depth first with
      | none => rfl
      | some next =>
          change (List.foldlM _ next (spilledByCall first) >>= _) = _
          rw [foldlM_depthAfterLine?_of_plain plain.1]
          exact ih plain.2 next

/-- The text of calls that close their scopes shows just these scopes if and only if no line spilled
by path data looks like the start or the end of a scope. -/
theorem showsScopes_appendCalls_iff {calls : List Call}
    (balanced : calls.foldlM Writer.depthAfter? 0 = some 0) :
    ShowsScopes (Writer.appendCalls "" calls) (calls.countP Call.opensScope) ↔
      ∀ line ∈ calls.flatMap spilledByCall,
        lineOpensScope line = false ∧ lineClosesScope line = false := by
  have linesEq := textLines_appendCalls (Or.inl rfl) calls
  change _ = calls.flatMap _ at linesEq
  have linesOpen := countP_textLines (fun starts => starts.opens_eq) calls
  have linesClose := countP_textLines (fun starts => starts.closes_eq) calls
  constructor
  · rintro ⟨closed, opened⟩ line lineMem
    rw [linesEq] at closed opened
    have linesMatch := countP_of_foldlM_scopesAfter? lineClosesScope_of_lineOpensScope closed
    have callsMatch : 0 + calls.countP Call.opensScope = 0 + calls.countP Call.closesScope := by
      apply countP_of_foldlM_scopesAfter?
      · intro call opens
        cases call <;> first | rfl | cases opens
      · simp only [← Writer.depthAfter?_eq]
        exact balanced
    have noneOpens : (calls.flatMap spilledByCall).countP lineOpensScope = 0 := by omega
    have noneCloses : (calls.flatMap spilledByCall).countP lineClosesScope = 0 := by omega
    rw [List.countP_eq_zero] at noneOpens noneCloses
    exact ⟨Bool.eq_false_iff.mpr (noneOpens line lineMem),
      Bool.eq_false_iff.mpr (noneCloses line lineMem)⟩
  · intro plain
    have noneOpens : (calls.flatMap spilledByCall).countP lineOpensScope = 0 := by
      apply List.countP_eq_zero.mpr
      intro line lineMem
      simp [plain line lineMem]
    refine ⟨?_, ?_⟩
    · rw [linesEq, foldlM_textLines plain, balanced]
    · rw [linesEq, linesOpen, noneOpens, Nat.add_zero]

/-! ## Scopes of placed glyphs -/

theorem countP_opensScope_strokesOfAll {children : List Element}
    (flat : ∀ fill nested, Element.group fill nested ∉ children) :
    (Element.strokesOfAll children).countP Stroke.opensScope = 0 := by
  induction children with
  | nil => rfl
  | cons first rest ih =>
      have restFlat : ∀ fill nested, Element.group fill nested ∉ rest := by
        intro fill nested nestedMem
        exact flat fill nested (List.mem_cons_of_mem first nestedMem)
      rw [Element.strokesOfAll, List.countP_append, ih restFlat]
      cases first with
      | path data fill => rfl
      | circle centerX centerY radius fill => rfl
      | ellipse centerX centerY radiusX radiusY fill => rfl
      | group fill nested => exact absurd List.mem_cons_self (flat fill nested)

/-- A glyph without nested groups opens one scope for each group, and one for its placement. -/
theorem countP_opensScope_placementStrokes (transform : Transform) {glyph : List Group}
    (flat : ∀ group ∈ glyph, ∀ fill nested, Element.group fill nested ∉ group.children) :
    (placementStrokes transform glyph).countP Stroke.opensScope = glyph.length + 1 := by
  have groupsOpen : (glyph.flatMap fun group => group.element.strokes).countP
      Stroke.opensScope = glyph.length := by
    induction glyph with
    | nil => rfl
    | cons first rest ih =>
        rw [List.forall_mem_cons] at flat
        rw [List.flatMap_cons, List.countP_append, ih flat.2, Group.element, Element.strokes,
          List.countP_cons, List.countP_append, countP_opensScope_strokesOfAll flat.1]
        simp [Stroke.opensScope, Stroke.withArgument, Call.opensScope]
        omega
  rw [placementStrokes, List.countP_cons, List.countP_append, groupsOpen]
  rfl

theorem countP_opensScope_of_completes {palette : Palette} {strokes : List Stroke}
    {calls : List Call} (called : palette.Completes strokes calls) :
    calls.countP Call.opensScope = strokes.countP Stroke.opensScope := by
  have opensEq : calls.map Call.opensScope = strokes.map Stroke.opensScope := by
    apply called.map_eq
    intro stroke argument
    cases stroke <;> rfl
  have counted := congrArg (List.countP id) opensEq
  rw [List.countP_map, List.countP_map] at counted
  exact counted

end Tikz

open Tikz

/-- A glyph whose fills are all in the palette is written. The lines of the text show one scope for
each group and one for the placement, all closed in turn, exactly if no path data spills a line that
looks like the start or the end of a scope. Every directive is on one line exactly if no path data
has a newline. -/
theorem place_showsScopes_iff {source : String} {groups : List Group}
    (parsed : parseGlyph source = .ok groups) (transform : Transform) {palette : Palette}
    (registered : ∀ color, some color ∈ glyphFills groups → palette.contains color = true) :
    ∃ text, place transform groups palette = .ok text ∧
      (ShowsScopes text (groups.length + 1) ↔
        ∀ data ∈ glyphPathData groups, ∀ line ∈ spilledLines data,
          lineOpensScope line = false ∧ lineClosesScope line = false) ∧
      (textLines text.toList =
          (Recorder.record (Drawing.place palette transform groups) none).1.map
            (fun call => (directive call).toList) ↔
        ∀ data ∈ glyphPathData groups, OneLine data) := by
  rw [glyphFills_eq_strokes transform] at registered
  simp only [Palette.contains_iff] at registered
  have called := Palette.completes_of_ending_ok (Palette.ending_script_eq_ok_iff.mpr registered)
  have scriptEq := Palette.script_of_completes called
  generalize (palette.script (placementStrokes transform groups)).calls = calls at called scriptEq
  have balanced : calls.foldlM Writer.depthAfter? 0 = some 0 := by
    rw [called.depthAfter?, depthAfter?_placementStrokes]
  have placed : place transform groups palette = .ok (Writer.appendCalls "" calls) := by
    rw [place, Drawing.place_eq_perform, scriptEq, Writer.run_perform balanced]
  have recorded : (Recorder.record (Drawing.place palette transform groups) none).1 = calls := by
    rw [Drawing.place_eq_perform, scriptEq, Recorder.record_perform]
  have opened : calls.countP Call.opensScope = groups.length + 1 := by
    rcases exists_foldlM_of_parseGlyph parsed with ⟨builder, handled, rfl⟩
    rw [countP_opensScope_of_completes called]
    exact countP_opensScope_placementStrokes transform (Builder.flattens_foldlM handled).not_nested
  have dataEq : calls.filterMap Call.pathData? = glyphPathData groups := by
    rw [called.pathData, glyphPathData_eq_strokes transform]
  refine ⟨_, placed, ?_, ?_⟩
  · rw [← opened, showsScopes_appendCalls_iff balanced, flatMap_spilledByCall, dataEq]
    simp only [List.forall_mem_flatMap]
  · rw [recorded, textLines_eq_directives_iff, dataEq]

/-- Path data on two lines takes its directive over two lines, but the scopes are shown as they are.
-/
theorem place_showsScopes_two_lines :
    ∃ groups text, parseGlyph "<g><path d='M0 0&#10;h1'/></g>" = .ok groups ∧
      place .identity groups Collector.empty.freeze = .ok text ∧
      glyphPathData groups = ["M0 0\nh1"] ∧ ShowsScopes text 4 := by
  have seen : (parseGlyph "<g><path d='M0 0&#10;h1'/></g>").map (fun groups =>
      (groups.length, glyphFills groups, glyphPathData groups)) =
        .ok (3, [none, none, none, none], ["M0 0\nh1"]) := by
    decide +kernel
  rcases map_eq_ok_iff.mp seen with ⟨groups, parsed, seenEq⟩
  rw [Prod.mk.injEq, Prod.mk.injEq] at seenEq
  rcases seenEq with ⟨lengthEq, fillsEq, dataEq⟩
  have registered : ∀ color, some color ∈ glyphFills groups →
      Collector.empty.freeze.contains color = true := by
    intro color colorMem
    simp [fillsEq] at colorMem
  rcases place_showsScopes_iff parsed .identity registered with ⟨text, placed, showsIff, _⟩
  refine ⟨groups, text, parsed, placed, dataEq, ?_⟩
  rw [lengthEq, dataEq] at showsIff
  exact showsIff.mpr (by decide +kernel)

/-- Path data can close the scopes that it is in. Its group has no fill, so every palette has its
fills, and yet the lines of the text close a scope that is not open. -/
theorem place_not_showsScopes :
    ∃ groups text, parseGlyph "<path d='M0 0&#10;\\end\x7bscope\x7d&#10;'/>" = .ok groups ∧
      (∀ color, some color ∈ glyphFills groups →
        Collector.empty.freeze.contains color = true) ∧
      place .identity groups Collector.empty.freeze = .ok text ∧
      (textLines text.toList).foldlM depthAfterLine? 0 = none ∧
      ¬ ShowsScopes text (groups.length + 1) := by
  have seen : (parseGlyph "<path d='M0 0&#10;\\end\x7bscope\x7d&#10;'/>").map (fun groups =>
      (glyphFills groups, (place .identity groups Collector.empty.freeze).map fun text =>
        (textLines text.toList).foldlM depthAfterLine? 0)) =
          .ok ([none, none], .ok none) := by
    decide +kernel
  rcases map_eq_ok_iff.mp seen with ⟨groups, parsed, seenEq⟩
  rw [Prod.mk.injEq] at seenEq
  rcases seenEq with ⟨fillsEq, textSeen⟩
  rcases map_eq_ok_iff.mp textSeen with ⟨text, placed, scanned⟩
  refine ⟨groups, text, parsed, ?_, placed, scanned, ?_⟩
  · intro color colorMem
    simp [fillsEq] at colorMem
  · intro shows
    rw [shows.closed] at scanned
    cases scanned

end TikzGlyph
