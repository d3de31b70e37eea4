import TikzGlyph.Proofs.Document.Source
import TikzGlyph.Proofs.Json.ReadingBack
import TikzGlyph.Proofs.Json.ValueText

/-!
# Specifications that are written and read back

A specification that is written as JSON is read back with all its strings and with all its
placements. The text is taken apart into the value that it denotes, and reading that value gives the
specification. A number is written with the fewest digits that the nearest number determines, but it
is read in steps: what comes back is at most as many numbers away as there are inexact steps.
-/

namespace TikzGlyph

open Json

/-! ## Specifications as values -/

/-- The members of an object for a transform. -/
def Transform.valueMembers (transform : Transform) : List (Option String × Value) :=
  transform.named.map fun field => (some field.1, .number (some field.2))

def Placement.toValue (placement : Placement) : Value :=
  .object ((some "glyph", .string (some placement.glyph)) :: placement.transform.valueMembers)

def Gradient.toValue (gradient : Gradient) : Value :=
  .array [.string (some gradient.bottom), .string (some gradient.top)]

/-- The object for a specification. -/
def DocumentSpec.toValue (spec : DocumentSpec) : Value :=
  let strings (texts : List String) : Value := .array (texts.map fun text => .string (some text))
  .object
    [(some "colors", strings spec.colors),
      (some "gradients", .array (spec.gradients.map Gradient.toValue)),
      (some "backgrounds", strings spec.backgrounds),
      (some "placements", .array (spec.placements.map Placement.toValue))]

/-! ## Reading the values -/

theorem reads_array_map {value : Type} {reader : Reader value} {toValue : value → Value}
    (reads : ∀ read, reader.Reads (toValue read) read) (read : List value) :
    (Reader.array reader).Reads (.array (read.map toValue)) read := by
  apply Reader.reads_array
  rw [List.forall₂_map_left_iff, List.forall₂_same]
  exact fun element _ => reads element

theorem Gradient.reads_toValue (gradient : Gradient) :
    Gradient.reader.Reads gradient.toValue gradient :=
  (Reader.reads_stringPair gradient.bottom gradient.top).map _

namespace Placement

/-- The members of a placement that has been written. -/
def Members.written (placement : Placement) : Members :=
  ⟨some placement.glyph, placement.transform.named.map fun field => (field.1, some field.2)⟩

/-- A number under any other name than that of the identifier is kept. -/
theorem Members.leads_number {members final : Members} {name : String} (other : name ≠ "glyph")
    (number : Binary64) {rest : List (Option String × Value)}
    (leads : Reader.Leads choose (members.append name (some number)) rest final) :
    Reader.Leads choose members ((some name, .number (some number)) :: rest) final :=
  .cons (if_neg other) ((Reader.reads_anything_number depth number).map _) leads

theorem Members.leads_written (placement : Placement) :
    Reader.Leads choose .none
      ((some "glyph", .string (some placement.glyph)) :: placement.transform.valueMembers)
      (written placement) := by
  refine .cons (if_pos rfl) ((Reader.reads_string placement.glyph).map _) ?_
  apply leads_number (by decide : "x" ≠ "glyph")
  apply leads_number (by decide : "y" ≠ "glyph")
  apply leads_number (by decide : "scale" ≠ "glyph")
  apply leads_number (by decide : "rotate" ≠ "glyph")
  exact .nil

theorem Members.complete_written (placement : Placement) :
    (written placement).complete = .ok placement := rfl

theorem reads_toValue (placement : Placement) : reader.Reads placement.toValue placement := by
  intro tokens rest tokensEq
  rcases Reader.reads_object (Members.leads_written placement) tokens rest tokensEq with
    ⟨members, membersEq, valueEq, restEq⟩
  refine ⟨members.map fun _ => placement, ?_, rfl, restEq⟩
  rw [reader, membersEq]
  change (members.value.complete.map fun placement => members.map fun _ => placement) = _
  rw [valueEq, Members.complete_written]
  rfl

end Placement

namespace DocumentSpec

theorem reads_strings (texts : List String) :
    (Reader.array Reader.string).Reads (.array (texts.map fun text => .string (some text)))
      texts :=
  reads_array_map Reader.reads_string texts

theorem leads_toValue (spec : DocumentSpec) :
    Reader.Leads Fields.choose .none
      [(some "colors", .array (spec.colors.map fun text => .string (some text))),
        (some "gradients", .array (spec.gradients.map Gradient.toValue)),
        (some "backgrounds", .array (spec.backgrounds.map fun text => .string (some text))),
        (some "placements", .array (spec.placements.map Placement.toValue))]
      ⟨some spec.colors, some spec.gradients, some spec.backgrounds, some spec.placements⟩ := by
  refine .cons rfl ((reads_strings spec.colors).map _) ?_
  refine .cons rfl ((reads_array_map Gradient.reads_toValue spec.gradients).map _) ?_
  refine .cons rfl ((reads_strings spec.backgrounds).map _) ?_
  refine .cons rfl ((reads_array_map Placement.reads_toValue spec.placements).map _) ?_
  exact .nil

theorem reads_toValue (spec : DocumentSpec) : reader.Reads spec.toValue spec :=
  (Reader.reads_record (leads_toValue spec)).map Fields.complete

end DocumentSpec

/-! ## Writing the values -/

/-- What a transform is read back as, number by number. -/
structure Transform.IsReadBack (written read : Transform) : Prop where
  x : Json.IsReadBack written.x read.x
  y : Json.IsReadBack written.y read.y
  scale : Json.IsReadBack written.scale read.scale
  rotate : Json.IsReadBack written.rotate read.rotate

/-- What a placement is read back as: its glyph at what its transform is read back as. -/
structure Placement.IsReadBack (written read : Placement) : Prop where
  glyph : read.glyph = written.glyph
  transform : written.transform.IsReadBack read.transform

/-- What a specification is read back as: all strings are the same and in the same order, and every
placement is read back. -/
structure DocumentSpec.IsReadBack (written read : DocumentSpec) : Prop where
  colors : read.colors = written.colors
  gradients : read.gradients = written.gradients
  backgrounds : read.backgrounds = written.backgrounds
  placements : List.Forall₂ Placement.IsReadBack written.placements read.placements

theorem isReadAs_quote (text : String) :
    IsReadAs (quote text).toList (Value.string (some text)).tokens :=
  (splitsInto_quote text).isReadAs

theorem Gradient.splitsInto_toJson (gradient : Gradient) :
    SplitsInto gradient.toJson.toList gradient.toValue.tokens := by
  have textEq : gradient.toJson =
      "[" ++ ",".intercalate [quote gradient.bottom, quote gradient.top] ++ "]" := by
    apply String.toList_injective
    simp [Gradient.toJson, String.toList_append]
  rw [textEq]
  exact splitsInto_array (.cons (isReadAs_quote _) (.cons (isReadAs_quote _) .nil))

/-- The numbers of a finite transform are written as members that hold what they are read back
as. -/
theorem Transform.exists_isReadBack {transform : Transform}
    (finite : ∀ field ∈ transform.named, field.2.IsFinite) :
    ∃ read, transform.IsReadBack read ∧
      List.Forall₂ (fun text member => IsReadAs text.toList (Value.memberToken member))
        (transform.named.map fun field => quote field.1 ++ ":" ++ field.2.text .json)
        read.valueMembers := by
  rcases (forall_named Binary64.IsFinite).mp finite with
    ⟨xFinite, yFinite, scaleFinite, rotateFinite⟩
  rcases Json.exists_isReadBack xFinite with ⟨x, xBack, xText⟩
  rcases Json.exists_isReadBack yFinite with ⟨y, yBack, yText⟩
  rcases Json.exists_isReadBack scaleFinite with ⟨scale, scaleBack, scaleText⟩
  rcases Json.exists_isReadBack rotateFinite with ⟨rotate, rotateBack, rotateText⟩
  refine ⟨⟨x, y, scale, rotate⟩, ⟨xBack, yBack, scaleBack, rotateBack⟩, ?_⟩
  exact .cons (isReadAs_member "x" xText) (.cons (isReadAs_member "y" yText)
    (.cons (isReadAs_member "scale" scaleText)
      (.cons (isReadAs_member "rotate" rotateText) .nil)))

theorem Placement.toJson_eq (placement : Placement) :
    placement.toJson = "\x7b" ++ ",".intercalate ((quote "glyph" ++ ":" ++ quote placement.glyph) ::
      placement.transform.named.map fun field => quote field.1 ++ ":" ++ field.2.text .json) ++
        "\x7d" := by
  apply String.toList_injective
  simp [Placement.toJson, Transform.jsonMembers, Transform.named, String.toList_append]

theorem Placement.exists_isReadBack {placement : Placement}
    (finite : ∀ field ∈ placement.transform.named, field.2.IsFinite) :
    ∃ read, placement.IsReadBack read ∧
      SplitsInto placement.toJson.toList read.toValue.tokens := by
  rcases Transform.exists_isReadBack finite with ⟨transform, transformBack, membersText⟩
  refine ⟨⟨placement.glyph, transform⟩, ⟨rfl, transformBack⟩, ?_⟩
  rw [toJson_eq]
  exact splitsInto_object (.cons (isReadAs_member "glyph" (isReadAs_quote _)) membersText)

theorem exists_placements {placements : List Placement}
    (finite : ∀ placement ∈ placements, ∀ field ∈ placement.transform.named, field.2.IsFinite) :
    ∃ read, List.Forall₂ Placement.IsReadBack placements read ∧
      List.Forall₂ (fun text value => IsReadAs text.toList (Value.tokens value))
        (placements.map Placement.toJson) (read.map Placement.toValue) := by
  induction placements with
  | nil => exact ⟨[], .nil, .nil⟩
  | cons placement rest ih =>
      rw [List.forall_mem_cons] at finite
      rcases Placement.exists_isReadBack finite.1 with ⟨read, readBack, text⟩
      rcases ih finite.2 with ⟨others, othersBack, othersText⟩
      exact ⟨read :: others, .cons readBack othersBack, .cons text.isReadAs othersText⟩

/-! ## Numbers that are written short -/

theorem Transform.IsReadBack.eq_of_isWrittenShort {written read : Transform}
    (back : written.IsReadBack read)
    (short : ∀ field ∈ written.named, IsWrittenShort field.2) : read = written := by
  rcases (forall_named IsWrittenShort).mp short with ⟨xShort, yShort, scaleShort, rotateShort⟩
  rcases read with ⟨x, y, scale, rotate⟩
  have xEq : x = written.x := back.x.eq_of_isWrittenShort xShort
  have yEq : y = written.y := back.y.eq_of_isWrittenShort yShort
  have scaleEq : scale = written.scale := back.scale.eq_of_isWrittenShort scaleShort
  have rotateEq : rotate = written.rotate := back.rotate.eq_of_isWrittenShort rotateShort
  rw [xEq, yEq, scaleEq, rotateEq]

theorem placements_eq_of_isWrittenShort {written read : List Placement}
    (back : List.Forall₂ Placement.IsReadBack written read)
    (short : ∀ placement ∈ written, ∀ field ∈ placement.transform.named,
      IsWrittenShort field.2) : read = written := by
  induction back with
  | nil => rfl
  | @cons placement first written read firstBack _ ih =>
      rw [List.forall_mem_cons] at short
      rcases first with ⟨glyph, transform⟩
      have glyphEq : glyph = placement.glyph := firstBack.glyph
      have transformEq : transform = placement.transform :=
        firstBack.transform.eq_of_isWrittenShort short.1
      rw [glyphEq, transformEq, ih short.2]

/-! ## The whole text -/

namespace DocumentSpec

theorem isReadAs_jsonArray_map {value : Type} {toJson : value → String} {toValue : value → Value}
    (splits : ∀ element, SplitsInto (toJson element).toList (toValue element).tokens)
    (elements : List value) :
    IsReadAs (jsonArray (elements.map toJson)).toList
      (Value.array (elements.map toValue)).tokens := by
  apply SplitsInto.isReadAs
  apply splitsInto_array
  rw [List.forall₂_map_left_iff, List.forall₂_map_right_iff, List.forall₂_same]
  exact fun element _ => (splits element).isReadAs

theorem isReadAs_strings (texts : List String) :
    IsReadAs (jsonArray (texts.map quote)).toList
      (Value.array (texts.map fun text => .string (some text))).tokens :=
  @isReadAs_jsonArray_map _ quote (fun text => .string (some text)) splitsInto_quote texts

/-- A specification with finite numbers is written as the value of what it is read back as. -/
theorem exists_isReadBack {spec : DocumentSpec}
    (finite : ∀ placement ∈ spec.placements, ∀ field ∈ placement.transform.named,
      field.2.IsFinite) :
    ∃ read, spec.IsReadBack read ∧ tokens spec.toJson.toList = read.toValue.tokens := by
  rcases exists_placements finite with ⟨placements, placementsBack, placementsSplit⟩
  refine ⟨⟨spec.colors, spec.gradients, spec.backgrounds, placements⟩,
    ⟨rfl, rfl, rfl, placementsBack⟩, ?_⟩
  have colors := isReadAs_member "colors" (isReadAs_strings spec.colors)
  have gradients := isReadAs_member "gradients"
    (isReadAs_jsonArray_map Gradient.splitsInto_toJson spec.gradients)
  have backgrounds := isReadAs_member "backgrounds" (isReadAs_strings spec.backgrounds)
  have placements := isReadAs_member "placements" (splitsInto_array placementsSplit).isReadAs
  have whole := splitsInto_object
    (.cons colors (.cons gradients (.cons backgrounds (.cons placements .nil)))) []
  rw [List.append_nil, tokens, List.append_nil] at whole
  exact whole

theorem IsReadBack.eq_of_isWrittenShort {written read : DocumentSpec}
    (back : written.IsReadBack read)
    (short : ∀ placement ∈ written.placements, ∀ field ∈ placement.transform.named,
      IsWrittenShort field.2) : read = written := by
  rcases read with ⟨colors, gradients, backgrounds, placements⟩
  rcases back with ⟨colorsEq, gradientsEq, backgroundsEq, placementsBack⟩
  have placementsEq := placements_eq_of_isWrittenShort placementsBack short
  simp only at colorsEq gradientsEq backgroundsEq placementsEq
  rw [colorsEq, gradientsEq, backgroundsEq, placementsEq]

/-- A specification with finite numbers is read back from the JSON that it is written as: the same
strings in the same order, the same glyphs in the same order, and every number as many numbers away
at most as reading its text takes inexact steps. If that is none for all numbers, the same
specification is read back. -/
theorem reads_back (spec : DocumentSpec)
    (finite : ∀ placement ∈ spec.placements, ∀ field ∈ placement.transform.named,
      field.2.IsFinite) :
    (∃ read, ofJson spec.toJson = .ok read ∧ spec.IsReadBack read) ∧
      ((∀ placement ∈ spec.placements, ∀ field ∈ placement.transform.named,
        IsWrittenShort field.2) → ofJson spec.toJson = .ok spec) := by
  rcases exists_isReadBack finite with ⟨read, back, tokensEq⟩
  have readEq := Reader.whole_eq_ok (reads_toValue read) tokensEq
  refine ⟨⟨read, readEq, back⟩, ?_⟩
  intro short
  rwa [back.eq_of_isWrittenShort short] at readEq

theorem reads_back_sun :
    (∀ placement ∈ [Placement.mk "sun" ⟨.ofQuotient false 1 2, .zero false, .one, .zero true⟩],
      ∀ field ∈ placement.transform.named, field.2.IsFinite) ∧
    ofJson (DocumentSpec.toJson ⟨["#abc"], [⟨"a", "b\"\\\n"⟩], [],
      [⟨"sun", ⟨.ofQuotient false 1 2, .zero false, .one, .zero true⟩⟩]⟩) =
        .ok ⟨["#abc"], [⟨"a", "b\"\\\n"⟩], [],
          [⟨"sun", ⟨.ofQuotient false 1 2, .zero false, .one, .zero true⟩⟩]⟩ := by
  have finite : ∀ placement ∈
      [Placement.mk "sun" ⟨.ofQuotient false 1 2, .zero false, .one, .zero true⟩],
        ∀ field ∈ placement.transform.named, field.2.IsFinite := by
    decide +kernel
  refine ⟨finite, (reads_back _ finite).2 ?_⟩
  intro placement placementMem
  cases List.mem_singleton.mp placementMem
  apply (Transform.forall_named IsWrittenShort).mpr
  refine ⟨⟨⟨false, ['0'], ['5'], none, ?_, ?_, List.all_eq_true.mp rfl⟩, ?_, ?_⟩,
    ⟨⟨false, ['0'], ['0'], none, ?_, ?_, List.all_eq_true.mp rfl⟩, ?_, ?_⟩,
    ⟨⟨false, ['1'], ['0'], none, ?_, ?_, List.all_eq_true.mp rfl⟩, ?_, ?_⟩,
    ⟨⟨true, ['0'], ['0'], none, ?_, ?_, List.all_eq_true.mp rfl⟩, ?_, ?_⟩⟩
  all_goals decide +kernel

/-- The largest odd whole number of fifty-three digits is written with a zero after its point, and
the digits without the point are too many to be read exactly: the number before it is read. -/
theorem not_read_back_exactly :
    ∃ spec read : DocumentSpec,
      (∀ placement ∈ spec.placements, ∀ field ∈ placement.transform.named, field.2.IsFinite) ∧
        ofJson spec.toJson = .ok read ∧ read ≠ spec := by
  refine ⟨⟨[], [], [], [⟨"a", ⟨.ofNat false 9007199254740991, .zero false, .one, .zero false⟩⟩]⟩,
    ⟨[], [], [], [⟨"a", ⟨.ofNat false 9007199254740990, .zero false, .one, .zero false⟩⟩]⟩,
    ?_, ?_, ?_⟩
  · decide +kernel
  · apply toOption_eq_some_iff.mp
    decide +kernel
  · decide +kernel

end DocumentSpec

end TikzGlyph
