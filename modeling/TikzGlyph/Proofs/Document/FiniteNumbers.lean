import TikzGlyph.Proofs.Document.Continuing
import TikzGlyph.Proofs.Document.Source
import TikzGlyph.Proofs.Glyph.Coordinates
import TikzGlyph.Proofs.Json.Range

/-!
# Only finite numbers are drawn

Numbers come into a document on two ways: in the transforms of its specification and in the
coordinates of its glyphs. Both are checked when they are read, and nothing computes with them
afterwards. So every number that a canvas receives is finite. Texts that stand for other numbers are
refused on both ways; only a literal that the two roundings of a JSON number bring back below
`overflow` is read as a finite number although it is past them.
-/

namespace TikzGlyph

open Json

/-! ## Transforms -/

theorem Transform.isFinite_identity : ∀ field ∈ identity.named, field.2.IsFinite := by
  decide

/-- All transforms have the same fields. -/
theorem Transform.exists_named (transform : Transform) {name : String} {missing : Binary64}
    (named : (name, missing) ∈ identity.named) : ∃ number, (name, number) ∈ transform.named := by
  simp only [Transform.named, List.mem_cons, Prod.mk.injEq, List.not_mem_nil, or_false] at named ⊢
  rcases named with ⟨rfl, _⟩ | ⟨rfl, _⟩ | ⟨rfl, _⟩ | ⟨rfl, _⟩ <;> simp

/-- A transform that is written in a value among finite tokens is finite. -/
theorem Transform.IsWrittenIn.isFinite {transform : Transform} {source : Value}
    (written : transform.IsWrittenIn source) (finite : ∀ token ∈ source.tokens, token.IsFinite) :
    ∀ number ∈ transform.numbers, number.IsFinite := by
  have namedFinite : ∀ number ∈ transform.named.map Prod.snd, number.IsFinite := by
    rw [List.forall_mem_map]
    rintro ⟨name, number⟩ named
    rcases written name number named with ⟨_, missing⟩ | present
    · exact isFinite_identity _ missing
    · have valueMem : Value.number (some number) ∈ source.under name := by simp [present]
      exact finite (.number (some number))
        (Value.tokens_subset_of_mem_under valueMem List.mem_cons_self)
  exact namedFinite

namespace DocumentSpec

theorem tokens_subset_of_mem_placementValues {source value : Value}
    (valueMem : value ∈ placementValues source) : value.tokens ⊆ source.tokens := by
  unfold placementValues at valueMem
  split at valueMem
  · rename_i first second third placements rest
    have placementsMem :
        placements ∈ (Value.array (first :: second :: third :: placements :: rest)).items := by
      simp [Value.items]
    exact List.Subset.trans (Value.tokens_subset_of_mem_items valueMem)
      (Value.tokens_subset_of_mem_items placementsMem)
  · rename_i members
    rcases List.mem_flatMap.mp valueMem with ⟨placements, placementsMem, valueMem⟩
    have underMem : placements ∈ (Value.object members).under "placements" := placementsMem
    exact List.Subset.trans (Value.tokens_subset_of_mem_items valueMem)
      (Value.tokens_subset_of_mem_under underMem)
  · cases valueMem

theorem isFinite_of_ofJson {text : String} {spec : DocumentSpec}
    (accepted : ofJson text = .ok spec) :
    ∀ placement ∈ spec.placements, ∀ number ∈ placement.transform.numbers, number.IsFinite := by
  rcases exists_value_of_ofJson accepted with ⟨source, tokensEq, written⟩
  intro placement placementMem
  rcases written.exists_value placementMem with ⟨value, valueMem, valueWritten⟩
  apply valueWritten.isFinite
  have tokensFinite : ∀ token ∈ tokens text.toList, token.IsFinite := isFinite_of_mem_tokens
  rw [tokensEq] at tokensFinite
  exact fun token tokenMem =>
    tokensFinite token (tokens_subset_of_mem_placementValues valueMem tokenMem)

/-- A specification is refused if a field of a transform in it is not a finite number. -/
theorem exists_error_of_transformValues {text : String} {source value : Value}
    (tokensEq : tokens text.toList = source.tokens) (valueMem : value ∈ transformValues source)
    (notNumber : ∀ number : Binary64, number.IsFinite → value ≠ .number (some number)) :
    ∃ problem, ofJson text = .error problem := by
  cases read : ofJson text with
  | error problem => exact ⟨problem, rfl⟩
  | ok spec =>
      rcases exists_value_of_ofJson read with ⟨accepted, acceptedEq, written⟩
      cases Value.tokens_injective (tokensEq.symm.trans acceptedEq)
      rcases List.mem_flatMap.mp valueMem with ⟨writtenValue, writtenMem, fieldMem⟩
      rcases List.mem_flatMap.mp fieldMem with ⟨⟨name, missing⟩, named, underMem⟩
      rcases written.exists_placement writtenMem with ⟨placement, placementMem, placementWritten⟩
      rcases placement.transform.exists_named named with ⟨number, numberNamed⟩
      rcases placementWritten name number numberNamed with ⟨absent, _⟩ | present
      · rw [absent] at underMem
        cases underMem
      · rw [present, List.mem_singleton] at underMem
        have numberMem : number ∈ placement.transform.numbers :=
          List.mem_map_of_mem (f := Prod.snd) numberNamed
        have numberFinite := isFinite_of_ofJson read placement placementMem number numberMem
        exact (notNumber number numberFinite underMem).elim

/-- A specification is refused if a part of its text is no token. -/
theorem exists_error_of_broken {text : String} {isString : Bool} {wanted skipped : Problem}
    (brokenMem : .broken isString wanted skipped ∈ tokens text.toList) :
    ∃ problem, ofJson text = .error problem := by
  cases read : ofJson text with
  | error problem => exact ⟨problem, rfl⟩
  | ok spec =>
      rcases exists_value_of_ofJson read with ⟨source, tokensEq, _⟩
      rw [tokensEq] at brokenMem
      exact (source.broken_not_mem_tokens brokenMem).elim

end DocumentSpec

/-! ## Drawings -/

namespace DocumentPlan

variable {catalog : Catalog} {spec : DocumentSpec} {plan : DocumentPlan}

theorem isFinite_of_glyph {id : String} {groups : List Group}
    (read : catalog.glyph id = .ok groups) : ∀ number ∈ glyphNumbers groups, number.IsFinite := by
  rcases bind_eq_ok_iff.mp read with ⟨source, _, parsed⟩
  exact isFinite_of_parseGlyph (mapError_eq_ok_iff.mp parsed)

/-- Placing a glyph of a document calls for its strokes on every canvas, and the numbers of the
calls are those of the transform and of the glyph. -/
theorem exists_calls_of_prepare (prepared : prepare catalog spec = .ok plan)
    {placement : Placement} (placed : placement.glyph ∈ spec.placements.map Placement.glyph) :
    ∃ groups calls, plan.glyph? placement.glyph = some groups ∧
      catalog.glyph placement.glyph = .ok groups ∧
      (∀ (state : Type) [Canvas state],
        (Drawing.place plan.palette placement.transform groups : Drawing state Unit) =
          Drawing.calls calls) ∧
      calls.flatMap Call.numbers = placement.transform.numbers ++ glyphNumbers groups := by
  rcases exists_glyph_of_prepare prepared placed with ⟨groups, found, read, registered⟩
  have ended : (plan.palette.script (placementStrokes placement.transform groups)).ending =
      .ok () := by
    rw [Palette.ending_script_eq_ok_iff, ← glyphFills_eq_strokes]
    exact registered
  refine ⟨groups, (plan.palette.script (placementStrokes placement.transform groups)).calls, found,
    read, ?_, ?_⟩
  · intro state canvas
    rw [Drawing.place_eq_perform, Drawing.perform, ended]
    exact bind_pure_unit
  · rw [(Palette.completes_of_ending_ok ended).numbers, numbers_placementStrokes]

/-- Only finite numbers are drawn. With every accepted text and every catalog that has its glyphs, a
placement calls for the same calls on every canvas, and all their numbers are finite: the transforms
of an accepted specification are finite, and so are the coordinates of a glyph that is read. A glyph
is refused if a coordinate is written as anything else, and a numeral is something else exactly from
`overflow` on. A specification is refused if a field of a transform is no number in range, and as a
whole if a word for a value without digits stands in it. A literal is out of range at the latest
from `2 ^ 1024 + 2 ^ 972` on, unless its power of ten is below those that are looked at. -/
theorem draws_only_finite_numbers :
    (∀ (text : String) (spec : DocumentSpec) (catalog : Catalog) (plan : DocumentPlan),
      DocumentSpec.ofJson text = .ok spec → prepare catalog spec = .ok plan →
        ∀ placement ∈ plan.spec.placements, ∃ groups calls,
          plan.glyph? placement.glyph = some groups ∧
          (∀ (state : Type) [Canvas state],
            (Drawing.place plan.palette placement.transform groups : Drawing state Unit) =
              Drawing.calls calls) ∧
          ∀ number ∈ calls.flatMap Call.numbers, number.IsFinite) ∧
    (∀ (text : String) (spec : DocumentSpec), DocumentSpec.ofJson text = .ok spec →
      ∀ placement ∈ spec.placements, ∀ number ∈ placement.transform.numbers, number.IsFinite) ∧
    (∀ (source : String) (groups : List Group), parseGlyph source = .ok groups →
      ∀ number ∈ glyphNumbers groups, number.IsFinite) ∧
    (∀ (source : String) (tag : Tag) (attributes : Attributes) (location : Location)
      (name value : String), .opening tag attributes location ∈ (glyphEvents source).events →
        .number name ∈ tag.demands → attributes.get? name = some value →
        (∀ number, Binary64.ofChars? (trimBlank value.toList) = some number → ¬number.IsFinite) →
          ∃ cause, parseGlyph source = .error cause) ∧
    (∀ numeral : Numeral, numeral.nearest.IsFinite ↔ numeral.magnitude < Binary64.overflow) ∧
    (∀ (text : String) (source value : Value), tokens text.toList = source.tokens →
      value ∈ DocumentSpec.transformValues source →
      (∀ number : Binary64, number.IsFinite → value ≠ .number (some number)) →
        ∃ problem, DocumentSpec.ofJson text = .error problem) ∧
    (∀ (before word after : List Char) (front : List Token) (number : Binary64),
      SplitsInto before front → Numeral.read? word = none →
      Binary64.ofChars? word = some number →
        ∃ problem, DocumentSpec.ofJson (String.ofList (before ++ word ++ after)) =
          .error problem) ∧
    ∀ literal : Literal, 2 ^ 1024 + 2 ^ 972 ≤ (literal.digits : ℚ) * 10 ^ literal.scale →
      -(largestExponent : Int) ≤ literal.exponent → ∀ rest, EndsNumber rest →
        tokens (literal.chars ++ rest) = .number none :: tokens rest := by
  refine ⟨?_, fun text spec => DocumentSpec.isFinite_of_ofJson,
    fun source groups => isFinite_of_parseGlyph,
    fun source tag attributes location name value => exists_error_of_not_finite,
    Numeral.isFinite_nearest_iff,
    fun text source value => DocumentSpec.exists_error_of_transformValues, ?_, ?_⟩
  · intro text spec catalog plan accepted prepared placement placementMem
    rw [spec_eq_of_prepare prepared] at placementMem
    rcases exists_calls_of_prepare prepared (List.mem_map_of_mem placementMem) with
      ⟨groups, calls, found, read, drawn, numbersEq⟩
    refine ⟨groups, calls, found, drawn, ?_⟩
    rw [numbersEq, List.forall_mem_append]
    exact ⟨DocumentSpec.isFinite_of_ofJson accepted placement placementMem,
      isFinite_of_glyph read⟩
  · intro before word after front number splits noNumeral read
    have brokenMem : .broken false .malformed .malformed ∈ tokens (before ++ word ++ after) := by
      rw [List.append_assoc, splits, tokens_append_word noNumeral read]
      exact List.mem_append_right front List.mem_cons_self
    apply DocumentSpec.exists_error_of_broken
    rw [String.toList_ofList]
    exact brokenMem
  · intro literal large written rest ends
    rw [tokens_append_literal literal ends, literal.value?_eq_none large written]

/-- A document with a circle is drawn with finite numbers. A circle with an infinite coordinate is
refused, and so are a transform with a literal out of range and a text with a word for infinity. -/
theorem draws_only_finite_numbers_sun :
    (∃ plan,
      prepare (MemoryCatalog.empty.add "sun" "<circle cx='1' cy='2' r='3'/>").catalog
          ⟨[], [], [], [⟨"sun", ⟨.one, .zero false, .one, .zero false⟩⟩]⟩ = .ok plan ∧
        ∀ placement ∈ plan.spec.placements, ∃ groups calls,
          plan.glyph? placement.glyph = some groups ∧
          (∀ (state : Type) [Canvas state],
            (Drawing.place plan.palette placement.transform groups : Drawing state Unit) =
              Drawing.calls calls) ∧
          ∀ number ∈ calls.flatMap Call.numbers, number.IsFinite) ∧
    (∀ number ∈ Transform.numbers ⟨.one, .zero false, .one, .zero false⟩, number.IsFinite) ∧
    (∃ groups, parseGlyph "<circle cx='1' cy='2' r='3'/>" = .ok groups ∧
      ∀ number ∈ glyphNumbers groups, number.IsFinite) ∧
    (∃ cause, parseGlyph "<circle cx='1' cy=' inf ' r='3'/>" = .error cause) ∧
    (∃ problem, DocumentSpec.ofJson "\x7b\"placements\":[\x7b\"x\":1e309\x7d]\x7d" =
      .error problem) ∧
    (∃ problem, DocumentSpec.ofJson "[-Infinity]" = .error problem) ∧
    tokens ("1e309".toList ++ [']']) = .number none :: tokens [']'] := by
  rcases draws_only_finite_numbers with
    ⟨drawn, transforms, glyphs, circles, _, fields, words, literals⟩
  have accepted : DocumentSpec.ofJson
      "\x7b\"placements\":[\x7b\"glyph\":\"sun\",\"x\":1\x7d]\x7d" =
        .ok ⟨[], [], [], [⟨"sun", ⟨.one, .zero false, .one, .zero false⟩⟩]⟩ := by
    apply toOption_eq_some_iff.mp
    decide +kernel
  refine ⟨?_, ?_, ?_, ?_, ?_, ?_, ?_⟩
  · have planned : failure? (prepare
        (MemoryCatalog.empty.add "sun" "<circle cx='1' cy='2' r='3'/>").catalog
        ⟨[], [], [], [⟨"sun", ⟨.one, .zero false, .one, .zero false⟩⟩]⟩) = none := by
      decide +kernel
    rcases failure?_eq_none_iff.mp planned with ⟨plan, prepared⟩
    exact ⟨plan, prepared, drawn _ _ _ plan accepted prepared⟩
  · exact transforms _ _ accepted _ List.mem_cons_self
  · have parsed : failure? (parseGlyph "<circle cx='1' cy='2' r='3'/>") = none := by
      decide +kernel
    rcases failure?_eq_none_iff.mp parsed with ⟨groups, read⟩
    exact ⟨groups, read, glyphs _ groups read⟩
  · have opened : .opening .circle ⟨[("cx", "1"), ("cy", " inf "), ("r", "3")]⟩ ⟨1, 1⟩ ∈
        (glyphEvents "<circle cx='1' cy=' inf ' r='3'/>").events := by
      decide +kernel
    have infinite : Binary64.ofChars? (trimBlank " inf ".toList) = some (.infinite false) := by
      decide +kernel
    apply circles _ _ _ _ "cy" " inf " opened (by decide) rfl
    intro number same
    rw [infinite] at same
    cases same
    exact id
  · apply fields _ (.object [(some "placements", .array [.object [(some "x", .number none)]])])
      (.number none)
    · decide +kernel
    · simp [DocumentSpec.transformValues, DocumentSpec.placementValues, Value.valuesUnder,
        Value.items, Value.under, Transform.named]
    · rintro number _ ⟨⟩
  · exact words ['['] "-Infinity".toList [']'] [.openBracket] (.infinite true)
      (splitsInto_of_lexeme (by decide) fun _ => rfl) (by decide +kernel) (by decide +kernel)
  · let power : Literal.Power :=
      ⟨'e', none, ['3', '0', '9'], Or.inl rfl, by decide, List.all_eq_true.mp rfl⟩
    let literal : Literal :=
      ⟨false, ['1'], [], some power, by decide, by decide, List.all_eq_true.mp rfl⟩
    have digitsEq : literal.digits = 1 := by decide
    have scaleEq : literal.scale = (309 : Nat) := by decide
    have powerLe : 2 ^ 1024 + 2 ^ 972 ≤ 10 ^ 309 := by decide +kernel
    have castLe : ((2 ^ 1024 + 2 ^ 972 : Nat) : ℚ) ≤ (10 ^ 309 : Nat) := Nat.cast_le.mpr powerLe
    refine literals literal ?_ (by decide +kernel) [']'] ?_
    · rw [digitsEq, scaleEq, Nat.cast_one, one_mul, zpow_natCast]
      rw [Nat.cast_add, Nat.cast_pow, Nat.cast_pow, Nat.cast_pow, Nat.cast_ofNat, Nat.cast_ofNat]
        at castLe
      exact castLe
    · rintro character ⟨⟩
      decide

/-- A literal just past the finite numbers is accepted: its significand is rounded down, and the
product with the power of ten is the largest finite number. -/
theorem not_refused_past_overflow :
    Binary64.ofText? "1.79769313486231581e308" = some (.infinite false) ∧
      ∃ spec, DocumentSpec.ofJson ("\x7b\"placements\":[\x7b\"glyph\":\"a\",\"x\":" ++
        "1.79769313486231581e308" ++ "\x7d]\x7d") = .ok spec := by
  refine ⟨by decide +kernel, failure?_eq_none_iff.mp ?_⟩
  decide +kernel

end DocumentPlan

end TikzGlyph
