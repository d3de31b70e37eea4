import TikzGlyph.Proofs.Drawing.Recording

/-!
# Drawings that a canvas stops

A canvas may refuse a call for reasons of its own. What a drawing asks of a canvas is then cut off
at this call: the canvas is asked for the calls that a canvas without faults would receive, up to
and including the one that it refuses, and for none after it, so the scopes that are open by then
stay open. The drawing ends with the fault of the canvas. If there is no call with the number of the
refused one, the drawing ends as it does without faults, and a fill that the palette lacks still
ends it before the call that would carry it. A canvas under watch keeps every call with its answer,
so that calls after a refusal would be seen.
-/

namespace TikzGlyph

namespace Canvas

variable {state : Type} [Canvas state]

/-- How a canvas answers a call, and the canvas after it. -/
def answer (call : Call) (canvas : state) : Except RenderError Unit × state :=
  (Drawing.call call).run.run canvas

/-- A canvas refuses the call with a number, counted from zero, and accepts those before it,
whatever the calls are. Nothing is said about later calls. -/
def RefusesCall : Nat → state → Prop
  | 0, canvas => ∀ call, ∃ cause, (answer call canvas).1 = .error cause
  | number + 1, canvas => ∀ call,
      (answer call canvas).1 = .ok () ∧ RefusesCall number (answer call canvas).2

end Canvas

/-- A canvas under watch: the canvas, and all calls that it was asked for with its answers. -/
structure Watched (state : Type) where
  canvas : state
  answers : List (Call × Except RenderError Unit)

def accepted (calls : List Call) : List (Call × Except RenderError Unit) :=
  calls.map fun call => (call, .ok ())

namespace Watched

variable {state : Type} [Canvas state]

/-- Passes a call on to the canvas and keeps it with the answer. -/
def receive (call : Call) (watched : Watched state) : Except RenderError Unit × Watched state :=
  let (answer, canvas) := Canvas.answer call watched.canvas
  (answer, ⟨canvas, watched.answers ++ [(call, answer)]⟩)

instance : Canvas (Watched state) where
  draw call := ExceptT.mk (receive call)

/-- The calls that a drawing asks of a canvas, with the answers, and how the drawing ends. -/
def watch (drawing : Drawing (Watched state) Unit) (canvas : state) :
    List (Call × Except RenderError Unit) × Except RenderError Unit :=
  let (result, watched) := drawing.run.run ⟨canvas, []⟩
  (watched.answers, result)

/-! ## Calls on a canvas under watch -/

variable {canvas : state} {calls : List Call} {number : Nat}

theorem run_calls_cons_of_ok {first : Call} (rest : List Call)
    (answered : (Canvas.answer first canvas).1 = .ok ())
    (earlier : List (Call × Except RenderError Unit)) :
    (Drawing.calls (first :: rest)).run.run (⟨canvas, earlier⟩ : Watched state) =
      (Drawing.calls rest).run.run
        ⟨(Canvas.answer first canvas).2, earlier ++ accepted [first]⟩ := by
  have received : (Drawing.call first).run.run (⟨canvas, earlier⟩ : Watched state) =
      (.ok (), ⟨(Canvas.answer first canvas).2, earlier ++ accepted [first]⟩) := by
    change receive first ⟨canvas, earlier⟩ = _
    simp only [receive, answered, accepted, List.map_cons, List.map_nil]
  rw [Drawing.calls, Drawing.run_bind, received]

theorem run_calls_cons_of_error {first : Call} (rest : List Call) {cause : RenderError}
    (answered : (Canvas.answer first canvas).1 = .error cause)
    (earlier : List (Call × Except RenderError Unit)) :
    (Drawing.calls (first :: rest)).run.run (⟨canvas, earlier⟩ : Watched state) =
      (.error cause, ⟨(Canvas.answer first canvas).2, earlier ++ [(first, .error cause)]⟩) := by
  have received : (Drawing.call first).run.run (⟨canvas, earlier⟩ : Watched state) =
      (.error cause, ⟨(Canvas.answer first canvas).2, earlier ++ [(first, .error cause)]⟩) := by
    change receive first ⟨canvas, earlier⟩ = _
    simp only [receive, answered]
  rw [Drawing.calls, Drawing.run_bind, received]

/-- The call that a canvas refuses is the last one that it is asked for. -/
theorem exists_run_calls_of_lt (refuses : Canvas.RefusesCall number canvas)
    (reached : number < calls.length) (earlier : List (Call × Except RenderError Unit)) :
    ∃ call cause after, calls[number]? = some call ∧
      (Drawing.calls calls).run.run (⟨canvas, earlier⟩ : Watched state) =
        (.error cause,
          ⟨after, earlier ++ (accepted (calls.take number) ++ [(call, .error cause)])⟩) := by
  induction calls generalizing number canvas earlier with
  | nil => cases reached
  | cons first rest ih =>
      cases number with
      | zero =>
          rcases refuses first with ⟨cause, answered⟩
          exact ⟨first, cause, _, rfl, run_calls_cons_of_error rest answered earlier⟩
      | succ number =>
          rcases refuses first with ⟨answered, refuses⟩
          rcases ih refuses (Nat.lt_of_succ_lt_succ reached) (earlier ++ accepted [first]) with
            ⟨call, cause, after, callEq, runEq⟩
          refine ⟨call, cause, after, callEq, ?_⟩
          rw [run_calls_cons_of_ok rest answered, runEq]
          simp [accepted]

/-- A canvas that refuses none of some calls is asked for all of them. -/
theorem exists_run_calls_of_le (refuses : Canvas.RefusesCall number canvas)
    (unreached : calls.length ≤ number) (earlier : List (Call × Except RenderError Unit)) :
    ∃ after, (Drawing.calls calls).run.run (⟨canvas, earlier⟩ : Watched state) =
      (.ok (), ⟨after, earlier ++ accepted calls⟩) := by
  induction calls generalizing number canvas earlier with
  | nil => exact ⟨canvas, by rw [accepted, List.map_nil, List.append_nil]; rfl⟩
  | cons first rest ih =>
      cases number with
      | zero => cases unreached
      | succ number =>
          rcases refuses first with ⟨answered, refuses⟩
          rcases ih refuses (Nat.le_of_succ_le_succ unreached) (earlier ++ accepted [first]) with
            ⟨after, runEq⟩
          refine ⟨after, ?_⟩
          rw [run_calls_cons_of_ok rest answered, runEq]
          simp [accepted]

/-! ## Scripts on a canvas under watch -/

variable {script : Script}

theorem exists_watch_of_lt (refuses : Canvas.RefusesCall number canvas)
    (reached : number < script.calls.length) :
    ∃ call cause, script.calls[number]? = some call ∧
      watch (Drawing.perform script) canvas =
        (accepted (script.calls.take number) ++ [(call, .error cause)], .error cause) := by
  rcases exists_run_calls_of_lt refuses reached [] with ⟨call, cause, after, callEq, runEq⟩
  refine ⟨call, cause, callEq, ?_⟩
  simp only [watch, Drawing.perform, Drawing.run_bind, runEq, List.nil_append]

theorem watch_of_le (refuses : Canvas.RefusesCall number canvas)
    (unreached : script.calls.length ≤ number) :
    watch (Drawing.perform script) canvas = (accepted script.calls, script.ending) := by
  rcases exists_run_calls_of_le refuses unreached [] with ⟨after, runEq⟩
  simp only [watch, Drawing.perform, Drawing.run_bind, runEq, List.nil_append]
  rfl

end Watched

/-! ## Recorders that fail -/

namespace Recorder

/-- A recorder that is told to fail at a call refuses this call. -/
theorem refusesCall (calls : List Call) (number : Nat) :
    Canvas.RefusesCall number (⟨calls, some number⟩ : Recorder) := by
  induction number generalizing calls with
  | zero => exact fun call => ⟨.format, rfl⟩
  | succ number ih => exact fun call => ⟨rfl, ih (calls ++ [call])⟩

theorem run_calls_failing (calls earlier : List Call) (number : Nat) :
    (Drawing.calls calls).run.run (⟨earlier, some number⟩ : Recorder) =
      (if number < calls.length then .error .format else .ok (),
        ⟨earlier ++ calls.take number, some (number - calls.length)⟩) := by
  induction calls generalizing number earlier with
  | nil => simp [Drawing.calls]; rfl
  | cons first rest ih =>
      rw [Drawing.calls, Drawing.run_bind]
      cases number with
      | zero =>
          change ((.error .format, ⟨earlier, some 0⟩) : Except RenderError Unit × Recorder) = _
          simp
      | succ number =>
          change (Drawing.calls rest).run.run (⟨earlier ++ [first], some number⟩ : Recorder) = _
          rw [ih]
          simp

/-- A recorder that is told to fail keeps the calls before the one that it fails at. -/
theorem record_perform_failing (script : Script) (number : Nat) :
    record (Drawing.perform script) (some number) =
      (script.calls.take number,
        if number < script.calls.length then .error .format else script.ending) := by
  have runEq := run_calls_failing script.calls [] number
  rw [List.nil_append] at runEq
  by_cases reached : number < script.calls.length
  · rw [if_pos reached] at runEq
    simp only [record, start, Drawing.perform, Drawing.run_bind, runEq, if_pos reached]
  · rw [if_neg reached] at runEq
    simp only [record, start, Drawing.perform, Drawing.run_bind, runEq, if_neg reached]
    rfl

end Recorder

/-! ## Drawings -/

/-- A drawing makes the same calls on every canvas and stops at the first one that is refused. -/
structure StopsWhenRefused (drawing : (state : Type) → [Canvas state] → Drawing state Unit) :
    Prop where
  /-- A canvas that refuses a call is asked for the calls of the recorded drawing up to this one,
  and the drawing ends with the fault of the canvas. -/
  stopped : ∀ (state : Type) [Canvas state] (canvas : state) (number : Nat),
    Canvas.RefusesCall number canvas →
    number < (Recorder.record (drawing Recorder) none).1.length →
    ∃ call cause, (Recorder.record (drawing Recorder) none).1[number]? = some call ∧
      Watched.watch (drawing (Watched state)) canvas =
        (accepted ((Recorder.record (drawing Recorder) none).1.take number) ++
          [(call, .error cause)], .error cause)
  /-- If the recorded drawing does not reach the call that the canvas refuses, the canvas is asked
  for the same calls, and the drawing ends as the recorded one. -/
  undisturbed : ∀ (state : Type) [Canvas state] (canvas : state) (number : Nat),
    Canvas.RefusesCall number canvas →
    (Recorder.record (drawing Recorder) none).1.length ≤ number →
    Watched.watch (drawing (Watched state)) canvas =
      (accepted (Recorder.record (drawing Recorder) none).1,
        (Recorder.record (drawing Recorder) none).2)
  /-- On a canvas without faults only a colour that the palette lacks ends the drawing early. -/
  ending : (Recorder.record (drawing Recorder) none).2 = .ok () ∨
    ∃ color, (Recorder.record (drawing Recorder) none).2 =
      .error (.palette (.unregistered color))
  /-- A recorder that is told to fail at a call has received the calls before it. -/
  recorded : ∀ number, Recorder.record (drawing Recorder) (some number) =
    ((Recorder.record (drawing Recorder) none).1.take number,
      if number < (Recorder.record (drawing Recorder) none).1.length then .error .format
      else (Recorder.record (drawing Recorder) none).2)

theorem stopsWhenRefused_perform {script : Script}
    (ending : script.ending = .ok () ∨
      ∃ color, script.ending = .error (.palette (.unregistered color))) :
    StopsWhenRefused fun _ => Drawing.perform script := by
  refine ⟨?_, ?_, ?_, ?_⟩
  · intro state _ canvas number refuses
    rw [Recorder.record_perform]
    exact Watched.exists_watch_of_lt refuses
  · intro state _ canvas number refuses
    rw [Recorder.record_perform]
    exact Watched.watch_of_le refuses
  · rw [Recorder.record_perform]
    exact ending
  · intro number
    rw [Recorder.record_perform]
    exact Recorder.record_perform_failing script number

/-- Whatever is drawn stops at once when the canvas fails; the recorder that is told to fail is one
of the canvases that this is about. -/
theorem drawings_stop_when_refused :
    (∀ palette shape, StopsWhenRefused fun _ => Drawing.element palette shape) ∧
      (∀ palette transform glyph, StopsWhenRefused fun _ =>
        Drawing.place palette transform glyph) ∧
      (∀ palette, StopsWhenRefused fun _ => Drawing.palette palette) ∧
      ∀ number, Canvas.RefusesCall number (Recorder.start (some number)) := by
  refine ⟨?_, ?_, ?_, ?_⟩
  · intro palette shape
    simp only [Drawing.element_eq_perform]
    exact stopsWhenRefused_perform (palette.ending_script_cases shape.strokes)
  · intro palette transform glyph
    simp only [Drawing.place_eq_perform]
    exact stopsWhenRefused_perform (palette.ending_script_cases (placementStrokes transform glyph))
  · intro palette
    simp only [Drawing.palette_eq_perform]
    exact stopsWhenRefused_perform (Or.inl rfl)
  · exact Recorder.refusesCall []

end TikzGlyph
