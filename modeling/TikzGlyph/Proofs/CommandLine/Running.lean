import Mathlib.Data.List.Forall2
import TikzGlyph.CommandLine
import TikzGlyph.Proofs.Document.Prepared
import TikzGlyph.Proofs.Files.Writing
import TikzGlyph.Proofs.Text.JoinedLines

/-!
# All or nothing

A run of the program reads, compiles and then writes. What a request makes is said here without the
order of these steps: a preview, or the parts of a document, of which those that are not empty are
joined by newlines. A request makes a text, or there is a cause that stops it; in the second case
nothing is written, and in the first the output becomes the text and nothing else changes.
-/

namespace TikzGlyph

namespace CommandLine

/-- The texts that are not empty, joined by newlines. -/
def joinLines (texts : List String) : String :=
  "\n".intercalate (texts.filter (· ≠ ""))

/-- The text that a request makes from the files. -/
inductive Makes (files : Files) : Request → String → Prop
  | preview {glyph output source text : String}
      (read : files.readText glyph = .ok source)
      (previewed : TikzGlyph.preview source = .ok text) :
      Makes files (.preview glyph output) text
  | compile {glyphDirectory document output json palette placements : String}
      {spec : DocumentSpec} {plan : DocumentPlan} {shadings : List String}
      (read : files.readText document = .ok json)
      (parsed : DocumentSpec.ofJson json = .ok spec)
      (prepared :
        DocumentPlan.prepare (DirectoryCatalog.catalog files glyphDirectory) spec = .ok plan)
      (paletteDrawn : plan.paletteText = .ok palette)
      (gradientsDrawn : List.Forall₂ (fun gradient shading => plan.shade gradient = .ok shading)
        spec.gradients shadings)
      (placementsDrawn : plan.placementsText = .ok placements) :
      Makes files (.compile glyphDirectory document output)
        (joinLines (palette :: shadings ++ [placements]))

/-- What stops a request before its text is made. -/
inductive Stops (files : Files) : Request → CompileError → Prop
  | unreadable {request : Request} {cause : FileError}
      (unread : files.readText request.inputPath = .error cause) :
      Stops files request (.file cause)
  | unparsedGlyph {glyph output source : String} {cause : GlyphError}
      (read : files.readText glyph = .ok source)
      (unparsed : parseGlyph source = .error cause) :
      Stops files (.preview glyph output) (.parse cause)
  | unparsedDocument {glyphDirectory document output json : String} {problem : Json.Problem}
      (read : files.readText document = .ok json)
      (unparsed : DocumentSpec.ofJson json = .error problem) :
      Stops files (.compile glyphDirectory document output) (.json problem)
  | unprepared {glyphDirectory document output json : String} {spec : DocumentSpec}
      {cause : CompileError}
      (read : files.readText document = .ok json)
      (parsed : DocumentSpec.ofJson json = .ok spec)
      (refused :
        DocumentPlan.prepare (DirectoryCatalog.catalog files glyphDirectory) spec = .error cause) :
      Stops files (.compile glyphDirectory document output) cause

variable {files : Files} {request : Request} {plan : DocumentPlan}

/-! ## The parts of a document -/

/-- Lines that are pushed one by one leave the empty ones out. -/
theorem foldl_pushLine (text : String) (lines : List String) :
    lines.foldl pushLine text = joinLines (text :: lines) := by
  have nonempty : ∀ line ∈ (text :: lines).filter (· ≠ ""), line ≠ "" := by
    intro line lineMem
    simpa using (List.mem_filter.mp lineMem).2
  have firstPushed : pushLine "" text = text := by
    rw [pushLine, Tikz.Writer.appendLine, if_pos rfl]
    split_ifs with empty
    · exact empty.symm
    · rfl
  calc lines.foldl pushLine text
      = (text :: lines).foldl pushLine "" := by rw [List.foldl_cons, firstPushed]
    _ = ((text :: lines).filter (· ≠ "")).foldl Tikz.Writer.appendLine "" := by
        rw [List.foldl_filter]
        simp only [decide_not, Bool.not_eq_true', decide_eq_false_iff_not, ite_not]
        rfl
    _ = joinLines (text :: lines) := Tikz.Writer.foldl_appendLine_empty nonempty

theorem foldlM_pushLine {gradients : List Gradient} {shadings : List String}
    (drawn : List.Forall₂ (fun gradient shading => plan.shade gradient = .ok shading)
      gradients shadings) (text : String) :
    gradients.foldlM (fun text gradient => return pushLine text (← plan.shade gradient)) text =
      .ok (shadings.foldl pushLine text) := by
  induction drawn generalizing text with
  | nil => rfl
  | @cons gradient shading _ _ firstDrawn _ ih =>
      have pushed : (return pushLine text (← plan.shade gradient) : Except CompileError String) =
          .ok (pushLine text shading) := by
        rw [firstDrawn]
        rfl
      rw [foldlM_cons_of_ok pushed, ih, List.foldl_cons]

/-- The text of a document is the join of its parts that are not empty. -/
theorem documentText_eq {palette placements : String} {shadings : List String}
    (paletteDrawn : plan.paletteText = .ok palette)
    (gradientsDrawn : List.Forall₂ (fun gradient shading => plan.shade gradient = .ok shading)
      plan.spec.gradients shadings)
    (placementsDrawn : plan.placementsText = .ok placements) :
    documentText plan = .ok (joinLines (palette :: shadings ++ [placements])) := by
  rw [documentText, paletteDrawn]
  change (do
    let shaded ← plan.spec.gradients.foldlM
      (fun text gradient => return pushLine text (← plan.shade gradient)) palette
    return pushLine shaded (← plan.placementsText) : Except CompileError String) = _
  rw [foldlM_pushLine gradientsDrawn, placementsDrawn, List.cons_append, ← foldl_pushLine,
    List.foldl_append]
  rfl

/-- The gradients of a prepared plan can all be shaded. -/
theorem exists_shadings {catalog : Catalog} {spec : DocumentSpec}
    (prepared : DocumentPlan.prepare catalog spec = .ok plan) :
    ∃ shadings, List.Forall₂ (fun gradient shading => plan.shade gradient = .ok shading)
      spec.gradients shadings := by
  have drawable : ∀ gradient ∈ spec.gradients, ∃ shading, plan.shade gradient = .ok shading := by
    intro gradient gradientMem
    rcases (DocumentPlan.canDraw_of_prepare prepared).shade gradient gradientMem with
      ⟨_, _, _, _, _, _, _, _, drawn⟩
    exact ⟨_, drawn⟩
  generalize spec.gradients = gradients at drawable
  induction gradients with
  | nil => exact ⟨[], .nil⟩
  | cons gradient rest ih =>
      rcases List.forall_mem_cons.mp drawable with ⟨⟨shading, drawn⟩, restDrawable⟩
      rcases ih restDrawable with ⟨shadings, restDrawn⟩
      exact ⟨shading :: shadings, .cons drawn restDrawn⟩

/-! ## Compiling a request -/

theorem result_preview (glyph output : String) :
    (compile files (.preview glyph output)).result = readText files glyph >>= preview := rfl

theorem result_compile (glyphDirectory document output : String) :
    (compile files (.compile glyphDirectory document output)).result =
      (do
        let spec ← readSpec files document
        let plan ← DocumentPlan.prepare (DirectoryCatalog.catalog files glyphDirectory) spec
        documentText plan) := by
  simp only [compile, compileDocument]
  cases readSpec files document with
  | error cause => rfl
  | ok spec =>
      change _ = (DocumentPlan.prepare _ spec >>= documentText)
      cases prepared :
          DocumentPlan.prepare (DirectoryCatalog.catalog files glyphDirectory) spec with
      | error cause =>
          simp only [prepared]
          rfl
      | ok plan =>
          simp only [prepared]
          rfl

theorem readText_of_ok {path text : String} (read : files.readText path = .ok text) :
    readText files path = .ok text :=
  mapError_eq_ok_iff.mpr read

theorem readText_of_error {path : String} {cause : FileError}
    (unread : files.readText path = .error cause) : readText files path = .error (.file cause) :=
  mapError_eq_error_iff.mpr ⟨cause, unread, rfl⟩

theorem readSpec_of_ok {document json : String} (read : files.readText document = .ok json) :
    readSpec files document = (DocumentSpec.ofJson json).mapError .json := by
  rw [readSpec, readText_of_ok read]
  rfl

theorem result_eq_of_makes {text : String} (makes : Makes files request text) :
    (compile files request).result = .ok text := by
  cases makes with
  | preview read previewed =>
      rw [result_preview, readText_of_ok read]
      exact previewed
  | compile read parsed prepared paletteDrawn gradientsDrawn placementsDrawn =>
      rw [← DocumentPlan.spec_eq_of_prepare prepared] at gradientsDrawn
      simp only [result_compile, bind_eq_ok_iff]
      exact ⟨_, by rw [readSpec_of_ok read, parsed, mapError_ok], _, prepared,
        documentText_eq paletteDrawn gradientsDrawn placementsDrawn⟩

theorem result_eq_of_stops {cause : CompileError} (stops : Stops files request cause) :
    (compile files request).result = .error cause := by
  cases stops with
  | unreadable unread =>
      cases request with
      | preview glyph output =>
          change files.readText glyph = _ at unread
          rw [result_preview, readText_of_error unread]
          rfl
      | compile glyphDirectory document output =>
          change files.readText document = _ at unread
          rw [result_compile, readSpec, readText_of_error unread]
          rfl
  | unparsedGlyph read unparsed =>
      rw [result_preview, readText_of_ok read]
      change preview _ = _
      rw [preview, parseSource, unparsed]
      rfl
  | unparsedDocument read unparsed =>
      rw [result_compile, readSpec_of_ok read, unparsed]
      rfl
  | unprepared read parsed refused =>
      rw [result_compile, readSpec_of_ok read, parsed]
      change (DocumentPlan.prepare _ _ >>= documentText) = _
      rw [refused]
      rfl

theorem eq_of_makes {text other : String} (makes : Makes files request text)
    (alsoMakes : Makes files request other) : text = other :=
  Except.ok.inj ((result_eq_of_makes makes).symm.trans (result_eq_of_makes alsoMakes))

theorem eq_of_stops {cause other : CompileError} (stops : Stops files request cause)
    (alsoStops : Stops files request other) : cause = other :=
  Except.error.inj ((result_eq_of_stops stops).symm.trans (result_eq_of_stops alsoStops))

theorem not_makes_of_stops {cause : CompileError} {text : String}
    (stops : Stops files request cause) : ¬Makes files request text := by
  intro makes
  have both := (result_eq_of_stops stops).symm.trans (result_eq_of_makes makes)
  cases both

/-- Every request makes a text or is stopped. -/
theorem makes_or_stops (files : Files) (request : Request) :
    (∃ text, Makes files request text) ∨ ∃ cause, Stops files request cause := by
  cases request with
  | preview glyph output =>
      cases read : files.readText glyph with
      | error cause => exact .inr ⟨_, .unreadable read⟩
      | ok source =>
          cases parsed : parseGlyph source with
          | error cause => exact .inr ⟨_, .unparsedGlyph read parsed⟩
          | ok groups =>
              rcases DocumentPlan.exists_preview_of_parseSource (mapError_eq_ok_iff.mpr parsed)
                with ⟨text, previewed⟩
              exact .inl ⟨text, .preview read previewed⟩
  | compile glyphDirectory document output =>
      cases read : files.readText document with
      | error cause => exact .inr ⟨_, .unreadable read⟩
      | ok json =>
          cases parsed : DocumentSpec.ofJson json with
          | error problem => exact .inr ⟨_, .unparsedDocument read parsed⟩
          | ok spec =>
              cases prepared : DocumentPlan.prepare
                  (DirectoryCatalog.catalog files glyphDirectory) spec with
              | error cause => exact .inr ⟨_, .unprepared read parsed prepared⟩
              | ok plan =>
                  rcases plan.exists_paletteText with ⟨palette, paletteDrawn⟩
                  rcases exists_shadings prepared with ⟨shadings, gradientsDrawn⟩
                  rcases DocumentPlan.exists_placementsText_of_prepare prepared with
                    ⟨placements, placementsDrawn⟩
                  exact .inl ⟨_, .compile read parsed prepared paletteDrawn gradientsDrawn
                    placementsDrawn⟩

/-! ## Running the program -/

theorem ofArguments?_eq_none_iff {arguments : List String} :
    Request.ofArguments? arguments = none ↔ arguments.length ≠ 3 := by
  match arguments with
  | [] => simp [Request.ofArguments?]
  | [_] => simp [Request.ofArguments?]
  | [_, _] => simp [Request.ofArguments?]
  | [first, _, _] =>
      rw [Request.ofArguments?]
      split_ifs <;> simp
  | _ :: _ :: _ :: _ :: _ => simp [Request.ofArguments?]

section

variable {arguments : List String} {before : FileSystem}

theorem run_of_none (unasked : Request.ofArguments? arguments = none) :
    run arguments before = (⟨[], .usage⟩, before) := by
  rw [run, unasked]

theorem run_of_stops {cause : CompileError} (asked : Request.ofArguments? arguments = some request)
    (stops : Stops before.files request cause) :
    run arguments before = (⟨(compile before.files request).lines, .failure cause⟩, before) := by
  simp only [run, asked, result_eq_of_stops stops]

theorem exists_run_of_not_isWritable {text : String}
    (asked : Request.ofArguments? arguments = some request)
    (makes : Makes before.files request text) (notWritable : ¬before.IsWritable request.output) :
    ∃ cause, run arguments before =
      (⟨(compile before.files request).lines, .failure (.file cause)⟩, before) := by
  cases written : before.write request.output text with
  | error cause =>
      refine ⟨cause, ?_⟩
      simp only [run, asked, result_eq_of_makes makes, written]
  | ok after => exact absurd ((FileSystem.exists_write_iff text).mp ⟨after, written⟩) notWritable

theorem exists_run_of_isWritable {text : String}
    (asked : Request.ofArguments? arguments = some request)
    (makes : Makes before.files request text) (writable : before.IsWritable request.output) :
    ∃ lines after, run arguments before = (⟨lines, .success⟩, after) ∧
      before.ChangesOnly request.output text after := by
  rcases (FileSystem.exists_write_iff text).mpr writable with ⟨after, written⟩
  refine ⟨(compile before.files request).lines ++ [successLine request.output], after, ?_,
    FileSystem.changesOnly_of_write written⟩
  simp only [run, asked, result_eq_of_makes makes, written]

end

/-- A run either changes nothing and says why, or it changes the output only, to the text that the
request makes. -/
theorem run_all_or_nothing (arguments : List String) (before : FileSystem) :
    ∃ outcome after, run arguments before = (outcome, after) ∧
      (outcome.ending.exitCode ≠ 0 → after = before) ∧
      (arguments.length ≠ 3 → outcome.ending = .usage) ∧
      ∀ request, Request.ofArguments? arguments = some request →
        ((∃ text, Makes before.files request text) ∨ ∃ cause, Stops before.files request cause) ∧
        (∀ cause, Stops before.files request cause → outcome.ending = .failure cause) ∧
        ∀ text, Makes before.files request text →
          (before.IsWritable request.output →
            outcome.ending = .success ∧ before.ChangesOnly request.output text after) ∧
          (¬before.IsWritable request.output →
            ∃ cause, outcome.ending = .failure (.file cause)) := by
  cases asked : Request.ofArguments? arguments with
  | none => exact ⟨_, before, run_of_none asked, fun _ => rfl, fun _ => rfl, by simp⟩
  | some request =>
      have three : arguments.length = 3 := by
        apply Decidable.byContradiction
        intro wrongLength
        rw [ofArguments?_eq_none_iff.mpr wrongLength] at asked
        cases asked
      simp only [Option.some.injEq, forall_eq']
      rcases makes_or_stops before.files request with ⟨text, makes⟩ | ⟨cause, stops⟩
      · have notStops : ∀ cause, ¬Stops before.files request cause :=
          fun _ stops => not_makes_of_stops stops makes
        by_cases writable : before.IsWritable request.output
        · rcases exists_run_of_isWritable asked makes writable with ⟨lines, after, ran, changes⟩
          refine ⟨⟨lines, .success⟩, after, ran, absurd rfl, absurd three, .inl ⟨text, makes⟩, ?_,
            ?_⟩
          · intro cause stops
            exact absurd stops (notStops cause)
          · intro other otherMakes
            rw [eq_of_makes otherMakes makes]
            exact ⟨fun _ => ⟨rfl, changes⟩, fun notWritable => absurd writable notWritable⟩
        · rcases exists_run_of_not_isWritable asked makes writable with ⟨cause, ran⟩
          refine ⟨_, before, ran, fun _ => rfl, absurd three, .inl ⟨text, makes⟩, ?_, ?_⟩
          · intro cause stops
            exact absurd stops (notStops cause)
          · intro other otherMakes
            exact ⟨fun isWritable => absurd isWritable writable, fun _ => ⟨cause, rfl⟩⟩
      · refine ⟨_, before, run_of_stops asked stops, fun _ => rfl, absurd three,
          .inr ⟨cause, stops⟩, ?_, ?_⟩
        · intro other otherStops
          rw [eq_of_stops otherStops stops]
        · intro text makes
          exact absurd makes (not_makes_of_stops stops)

/-- A directory with a glyph, a document without anything, and a document with a gradient behind the
glyph. -/
def sunSystem : FileSystem :=
  ⟨.directory [("sun.svg", .file "<circle cx='1' cy='2' r='3' fill='#fc0'/>".toUTF8),
    ("night.json", .file "[[],[],[],[]]".toUTF8),
    ("day.json", .file
      ("\x7b\"gradients\":[[\"#ffd\",\"#9cf\"]]," ++
        "\"placements\":[\x7b\"glyph\":\"sun\"\x7d]\x7d").toUTF8)], []⟩

def daySpec : DocumentSpec := ⟨[], [⟨"#ffd", "#9cf"⟩], [], [⟨"sun", .identity⟩]⟩

/-- The palette, the shading and the placements of the document with a gradient. -/
def dayParts : List String :=
  ["\n".intercalate
      ["\\definecolor\x7bc0\x7d\x7bHTML\x7d\x7bffffdd\x7d",
        "\\definecolor\x7bc1\x7d\x7bHTML\x7d\x7b99ccff\x7d",
        "\\definecolor\x7bc2\x7d\x7bHTML\x7d\x7bffcc00\x7d"],
    "\\shade[shading=axis, bottom color=c0, top color=c1, shading angle=45] " ++
      "(current page.south west) rectangle (current page.north east);",
    "\n".intercalate
      ["\\begin\x7bscope\x7d[x=1pt, y=1pt, xshift=0, scale=1, yscale=-1, yshift=0, rotate=0]",
        "\\begin\x7bscope\x7d[]",
        "\\fill[fill=c2] (1, 2) circle (3);",
        "\\end\x7bscope\x7d",
        "\\end\x7bscope\x7d"]]

theorem makes_day (output : String) :
    Makes sunSystem.files (.compile "." "day.json" output) ("\n".intercalate dayParts) := by
  have specRead : readSpec sunSystem.files "day.json" = .ok daySpec :=
    toOption_eq_some_iff.mp (by decide +kernel)
  have partsDrawn :
      (DocumentPlan.prepare (DirectoryCatalog.catalog sunSystem.files ".") daySpec).map
        (fun plan => (plan.paletteText, daySpec.gradients.map plan.shade, plan.placementsText)) =
      .ok (.ok dayParts[0], [.ok dayParts[1]], .ok dayParts[2]) := by
    decide +kernel
  rcases bind_eq_ok_iff.mp specRead with ⟨json, read, parsed⟩
  rcases map_eq_ok_iff.mp partsDrawn with ⟨plan, prepared, partsEq⟩
  rw [Prod.mk.injEq, Prod.mk.injEq] at partsEq
  rcases partsEq with ⟨paletteDrawn, gradientsDrawn, placementsDrawn⟩
  have nonempty : ∀ part ∈ dayParts, part ≠ "" := by decide
  have joined : joinLines dayParts = "\n".intercalate dayParts := by
    rw [joinLines, List.filter_eq_self.mpr (by simpa using nonempty)]
  rw [← joined]
  exact .compile (mapError_eq_ok_iff.mp read) (mapError_eq_ok_iff.mp parsed) prepared paletteDrawn
    (.cons (List.head_eq_of_cons_eq gradientsDrawn) .nil) placementsDrawn

/-- A glyph is previewed into a new file, a document with a gradient is compiled into one, an empty
document replaces the glyph by an empty file, and a glyph that is not there leaves all files alone.
-/
theorem run_sunSystem :
    (∃ text outcome after,
      TikzGlyph.preview "<circle cx='1' cy='2' r='3' fill='#fc0'/>" = .ok text ∧
        run ["preview", "sun.svg", "sun.tex"] sunSystem = (outcome, after) ∧
        outcome.ending = .success ∧ sunSystem.ChangesOnly "sun.tex" text after) ∧
      (∃ outcome after, run [".", "day.json", "sun.tex"] sunSystem = (outcome, after) ∧
        outcome.ending = .success ∧
        sunSystem.ChangesOnly "sun.tex" ("\n".intercalate dayParts) after) ∧
      (∃ outcome after, run [".", "night.json", "sun.svg"] sunSystem = (outcome, after) ∧
        outcome.ending = .success ∧ sunSystem.ChangesOnly "sun.svg" "" after) ∧
      ∃ outcome, run ["preview", "moon.svg", "sun.svg"] sunSystem = (outcome, sunSystem) ∧
        outcome.ending = .failure (.file .notFound) := by
  have newWritable : sunSystem.IsWritable "sun.tex" := by
    refine ⟨["sun.tex"], rfl, ?_⟩
    rintro ⟨entries, found⟩
    cases found
  refine ⟨?_, ?_, ?_, ?_⟩
  · have readable :
        failure? (parseSource "<circle cx='1' cy='2' r='3' fill='#fc0'/>") = none := by
      decide +kernel
    rcases failure?_eq_none_iff.mp readable with ⟨groups, parsed⟩
    rcases DocumentPlan.exists_preview_of_parseSource parsed with ⟨text, previewed⟩
    have makes : Makes sunSystem.files (.preview "sun.svg" "sun.tex") text :=
      .preview rfl previewed
    rcases run_all_or_nothing ["preview", "sun.svg", "sun.tex"] sunSystem with
      ⟨outcome, after, ran, -, -, asked⟩
    rcases asked (.preview "sun.svg" "sun.tex") rfl with ⟨-, -, written⟩
    exact ⟨text, outcome, after, previewed, ran, (written text makes).1 newWritable⟩
  · rcases run_all_or_nothing [".", "day.json", "sun.tex"] sunSystem with
      ⟨outcome, after, ran, -, -, asked⟩
    rcases asked (.compile "." "day.json" "sun.tex") rfl with ⟨-, -, written⟩
    exact ⟨outcome, after, ran, (written _ (makes_day "sun.tex")).1 newWritable⟩
  · have makes : Makes sunSystem.files (.compile "." "night.json" "sun.svg") "" :=
      .compile rfl (toOption_eq_some_iff.mp (by decide +kernel) :
        DocumentSpec.ofJson "[[],[],[],[]]" = .ok .empty) rfl rfl .nil rfl
    have writable : sunSystem.IsWritable "sun.svg" := by
      refine ⟨["sun.svg"], rfl, ?_⟩
      rintro ⟨entries, found⟩
      cases found
    rcases run_all_or_nothing [".", "night.json", "sun.svg"] sunSystem with
      ⟨outcome, after, ran, -, -, asked⟩
    rcases asked (.compile "." "night.json" "sun.svg") rfl with ⟨-, -, written⟩
    exact ⟨outcome, after, ran, (written "" makes).1 writable⟩
  · have stops : Stops sunSystem.files (.preview "moon.svg" "sun.svg") (.file .notFound) :=
      .unreadable rfl
    rcases run_all_or_nothing ["preview", "moon.svg", "sun.svg"] sunSystem with
      ⟨outcome, after, ran, unchanged, -, asked⟩
    rcases asked (.preview "moon.svg" "sun.svg") rfl with ⟨-, refused, -⟩
    have ended := refused (.file .notFound) stops
    have same : after = sunSystem := by
      apply unchanged
      rw [ended]
      decide
    rw [same] at ran
    exact ⟨outcome, ran, ended⟩

end CommandLine

end TikzGlyph
