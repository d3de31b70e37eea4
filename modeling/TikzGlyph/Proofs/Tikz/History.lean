import TikzGlyph.Proofs.Text.JoinedLines
import TikzGlyph.Proofs.Tikz.Scopes

/-!
# Writers after any calls

The calls of a glyph open and close their scopes in pairs, but a writer takes calls in any order,
and it can be used after a call that failed. This file says what becomes of any calls on a new
writer. The only call that can fail closes a scope while none is open, and it leaves the writer as
it was. So the text has one directive for each call that succeeded, and the open scopes are those
that have been opened and not been closed.
-/

namespace TikzGlyph

namespace Tikz

namespace Writer

/-- The writer after some calls, whether they succeed or fail. -/
def after (writer : Writer) (calls : List Call) : Writer :=
  calls.foldl (fun current call => (write call current).2) writer

/-- Those of some calls that succeed when they are made one after the other. -/
def succeeding (writer : Writer) : List Call → List Call
  | [] => []
  | call :: rest =>
      match write call writer with
      | (.ok (), next) => call :: succeeding next rest
      | (.error _, next) => succeeding next rest

/-! ## One call -/

theorem depthAfter?_eq_none_iff {depth : Nat} {call : Call} :
    depthAfter? depth call = none ↔ call = .endScope ∧ depth = 0 := by
  cases call <;> simp [depthAfter?]

/-- A call adds its directive to the text, or it closes a scope while none is open and changes
nothing. -/
theorem write_cases (call : Call) (writer : Writer) :
    (∃ depth, depthAfter? writer.depth call = some depth ∧
        write call writer = (.ok (), ⟨appendLine writer.text (directive call), depth⟩)) ∨
      (call = .endScope ∧ writer.depth = 0 ∧
        write call writer = (.error .unbalancedScope, writer)) := by
  cases stepped : depthAfter? writer.depth call with
  | some depth =>
      refine Or.inl ⟨depth, rfl, ?_⟩
      rw [write, stepped]
  | none =>
      rcases depthAfter?_eq_none_iff.mp stepped with ⟨closing, noneOpen⟩
      refine Or.inr ⟨closing, noneOpen, ?_⟩
      rw [write, stepped]

theorem write_eq_ok_iff {call : Call} {writer : Writer} :
    (write call writer).1 = .ok () ↔ (call = .endScope → 0 < writer.depth) := by
  rcases write_cases call writer with ⟨depth, stepped, written⟩ | ⟨closing, noneOpen, refused⟩
  · have possible : ¬(call = .endScope ∧ writer.depth = 0) := by
      rw [← depthAfter?_eq_none_iff, stepped]
      simp
    rw [written]
    exact iff_of_true rfl fun closing => Nat.pos_of_ne_zero fun noneOpen =>
      possible ⟨closing, noneOpen⟩
  · rw [refused]
    simp [closing, noneOpen]

/-- A call that fails closes a scope that is not open, and nothing changes. -/
theorem eq_of_write_eq_error {call : Call} {writer : Writer} {cause : RenderError}
    (failed : (write call writer).1 = .error cause) :
    cause = .unbalancedScope ∧ (write call writer).2 = writer := by
  rcases write_cases call writer with ⟨depth, _, written⟩ | ⟨_, _, refused⟩
  · rw [written] at failed
    cases failed
  · rw [refused] at failed ⊢
    cases failed
    exact ⟨rfl, rfl⟩

/-! ## All calls -/

section

variable {writer next : Writer} {call : Call} {calls : List Call}

theorem after_cons (answered : (write call writer).2 = next) :
    after writer (call :: calls) = after next calls := by
  rw [← answered]
  rfl

theorem succeeding_cons_of_ok (written : write call writer = (.ok (), next)) :
    succeeding writer (call :: calls) = call :: succeeding next calls := by
  rw [succeeding, written]

theorem succeeding_cons_of_error {cause : RenderError}
    (refused : write call writer = (.error cause, next)) :
    succeeding writer (call :: calls) = succeeding next calls := by
  rw [succeeding, refused]

end

variable (writer : Writer) (calls : List Call)

/-- The calls that succeed step from depth to depth, and the text grows by their directives. -/
theorem exists_after_eq :
    ∃ depth, (succeeding writer calls).foldlM depthAfter? writer.depth = some depth ∧
      after writer calls = ⟨appendCalls writer.text (succeeding writer calls), depth⟩ := by
  induction calls generalizing writer with
  | nil => exact ⟨writer.depth, rfl, rfl⟩
  | cons first rest ih =>
      rcases write_cases first writer with ⟨depth, stepped, written⟩ | ⟨_, _, refused⟩
      · rcases ih ⟨appendLine writer.text (directive first), depth⟩ with ⟨final, scanned, afterEq⟩
        refine ⟨final, ?_, ?_⟩
        · rw [succeeding_cons_of_ok written, List.foldlM_cons, stepped]
          exact scanned
        · rw [succeeding_cons_of_ok written, after_cons (congrArg Prod.snd written)]
          exact afterEq
      · rw [succeeding_cons_of_error refused, after_cons (congrArg Prod.snd refused)]
        exact ih writer

/-- No opening of a scope fails. -/
theorem countP_opensScope_succeeding :
    (succeeding writer calls).countP Call.opensScope = calls.countP Call.opensScope := by
  induction calls generalizing writer with
  | nil => rfl
  | cons first rest ih =>
      rcases write_cases first writer with ⟨depth, _, written⟩ | ⟨rfl, _, refused⟩
      · rw [succeeding_cons_of_ok written, List.countP_cons, List.countP_cons, ih]
      · rw [succeeding_cons_of_error refused, ih,
          List.countP_cons_of_neg (by simp [Call.opensScope])]

theorem depth_after :
    (after writer calls).depth + (succeeding writer calls).countP Call.closesScope =
      writer.depth + calls.countP Call.opensScope := by
  have apart : ∀ call : Call, call.opensScope = true → call.closesScope = false := by
    intro call
    cases call <;> simp [Call.opensScope, Call.closesScope]
  rcases exists_after_eq writer calls with ⟨depth, scanned, afterEq⟩
  rw [funext₂ depthAfter?_eq] at scanned
  rw [afterEq, ← countP_opensScope_succeeding writer calls]
  exact (countP_of_foldlM_scopesAfter? apart scanned).symm

theorem directive_ne_empty (call : Call) : directive call ≠ "" := by
  rcases endsPlainly_directive call with ⟨start, last, directiveEq, _⟩
  intro empty
  simp [empty] at directiveEq

theorem appendCalls_empty : appendCalls "" calls = "\n".intercalate (calls.map directive) := by
  have noEmptyLine : ∀ line ∈ calls.map directive, line ≠ "" := by
    intro line lineMem
    rcases List.mem_map.mp lineMem with ⟨call, _, rfl⟩
    exact directive_ne_empty call
  rw [← foldl_appendLine_empty noEmptyLine, List.foldl_map]
  rfl

theorem directive_path (data : String) (fill : Option Nat) :
    directive (.path data fill) = pathStart fill ++ data ++ "\x7d;" := by
  rw [← String.toList_inj, toList_directive_path, String.toList_append, String.toList_append,
    List.append_assoc]
  rfl

/-- After any calls on a new writer, every call succeeds but the closing of a scope when as many
have been closed as opened; that one fails and changes nothing. The writer can be finished exactly
if every opened scope has been closed, and its text then joins the directives of the calls that
succeeded, in their order; path data stands in a directive as it is. -/
theorem finish_after (calls : List Call) :
    (∀ call, call ≠ .endScope → (write call (after empty calls)).1 = .ok ()) ∧
      ((write .endScope (after empty calls)).1 = .ok () ↔
        (succeeding empty calls).countP Call.closesScope < calls.countP Call.opensScope) ∧
      (∀ call cause, (write call (after empty calls)).1 = .error cause →
        cause = .unbalancedScope ∧ (write call (after empty calls)).2 = after empty calls) ∧
      (after empty calls).finish =
        (if calls.countP Call.opensScope = (succeeding empty calls).countP Call.closesScope then
          .ok ("\n".intercalate ((succeeding empty calls).map directive))
        else .error .unbalancedScope) ∧
      ∀ data fill, directive (.path data fill) = pathStart fill ++ data ++ "\x7d;" := by
  have counted := depth_after empty calls
  rw [show empty.depth = 0 from rfl, Nat.zero_add] at counted
  refine ⟨?_, ?_, ?_, ?_, directive_path⟩
  · intro call noClosing
    exact write_eq_ok_iff.mpr fun closing => absurd closing noClosing
  · rw [write_eq_ok_iff]
    simp only [forall_const]
    omega
  · intro call cause failed
    exact eq_of_write_eq_error failed
  · rcases exists_after_eq empty calls with ⟨depth, _, afterEq⟩
    have joined : (after empty calls).text =
        "\n".intercalate ((succeeding empty calls).map directive) := by
      rw [afterEq, ← appendCalls_empty]
      rfl
    have closedIff : (after empty calls).depth = 0 ↔
        calls.countP Call.opensScope = (succeeding empty calls).countP Call.closesScope := by
      omega
    simp only [finish, joined, closedIff]

/-- The first call fails, since no scope is open, and leaves no trace. -/
example : (after empty [.endScope, .beginGroup none, .path "M0 0" none, .endScope]).finish =
    .ok "\\begin\x7bscope\x7d[]\n\\fill[] svg \x7bM0 0\x7d;\n\\end\x7bscope\x7d" := by
  decide +kernel

end Writer

end Tikz

end TikzGlyph
