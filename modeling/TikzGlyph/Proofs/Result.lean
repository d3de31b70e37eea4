/-!
# Results with faults

When a step that may fail gives a value or a fault, in terms of the steps it is made of. The results
of this library are `Except` values; these equivalences take a chain of them apart.
-/

namespace TikzGlyph

variable {fault otherFault first second : Type}

theorem map_eq_ok_iff {result : Except fault first} {convert : first → second} {value : second} :
    result.map convert = .ok value ↔ ∃ source, result = .ok source ∧ convert source = value := by
  cases result <;> simp [Except.map]

theorem map_eq_error_iff {result : Except fault first} {convert : first → second}
    {cause : fault} :
    result.map convert = .error cause ↔ result = .error cause := by
  cases result <;> simp [Except.map]

/-- Two results with the same image have the same fault, or values with the same image. -/
theorem error_or_ok_of_map_eq_map {left right : Except fault first} {convert : first → second}
    (same : left.map convert = right.map convert) :
    (∃ cause, left = .error cause ∧ right = .error cause) ∨
      ∃ leftValue rightValue, left = .ok leftValue ∧ right = .ok rightValue ∧
        convert leftValue = convert rightValue := by
  cases left with
  | error leftCause =>
      have rightError := map_eq_error_iff.mp same.symm
      exact Or.inl ⟨leftCause, rfl, rightError⟩
  | ok leftValue =>
      rcases map_eq_ok_iff.mp same.symm with ⟨rightValue, rightOk, valuesEq⟩
      exact Or.inr ⟨leftValue, rightValue, rfl, rightOk, valuesEq.symm⟩

@[simp]
theorem mapError_ok (convert : fault → otherFault) (value : first) :
    (Except.ok value).mapError convert = .ok value := rfl

@[simp]
theorem mapError_error (convert : fault → otherFault) (cause : fault) :
    (Except.error cause : Except fault first).mapError convert = .error (convert cause) := rfl

theorem mapError_eq_ok_iff {result : Except fault first} {convert : fault → otherFault}
    {value : first} :
    result.mapError convert = .ok value ↔ result = .ok value := by
  cases result <;> simp

theorem mapError_eq_error_iff {result : Except fault first} {convert : fault → otherFault}
    {cause : otherFault} :
    result.mapError convert = .error cause ↔
      ∃ source, result = .error source ∧ convert source = cause := by
  cases result <;> simp

theorem bind_eq_ok_iff {result : Except fault first} {next : first → Except fault second}
    {value : second} :
    (result >>= next) = .ok value ↔ ∃ source, result = .ok source ∧ next source = .ok value := by
  cases result <;> simp [bind, Except.bind]

theorem bind_eq_error_iff {result : Except fault first} {next : first → Except fault second}
    {cause : fault} :
    (result >>= next) = .error cause ↔
      result = .error cause ∨ ∃ source, result = .ok source ∧ next source = .error cause := by
  cases result <;> simp [bind, Except.bind]

theorem foldlM_cons_of_ok {step : first → second → Except fault first} {state next : first}
    {value : second} (stepped : step state value = .ok next) (rest : List second) :
    (value :: rest).foldlM step state = rest.foldlM step next := by
  rw [List.foldlM_cons, stepped]
  rfl

theorem foldlM_cons_eq_ok_iff {step : first → second → Except fault first} {state final : first}
    {value : second} {rest : List second} :
    (value :: rest).foldlM step state = .ok final ↔
      ∃ next, step state value = .ok next ∧ rest.foldlM step next = .ok final := by
  rw [List.foldlM_cons, bind_eq_ok_iff]

theorem foldlM_append_of_ok {step : first → second → Except fault first} {state next : first}
    {values : List second} (stepped : values.foldlM step state = .ok next) (rest : List second) :
    (values ++ rest).foldlM step state = rest.foldlM step next := by
  rw [List.foldlM_append, stepped]
  rfl

theorem mapM_congr_of_mem {left right : first → Except fault second} {values : List first}
    (agree : ∀ value ∈ values, left value = right value) :
    values.mapM left = values.mapM right := by
  induction values with
  | nil => rfl
  | cons value rest ih =>
      simp only [List.forall_mem_cons] at agree
      simp only [List.mapM_cons, agree.1, ih agree.2]

theorem exists_mapM_of_forall {convert : first → Except fault second} {values : List first}
    (converted : ∀ value ∈ values, ∃ image, convert value = .ok image) :
    ∃ images, values.mapM convert = .ok images := by
  induction values with
  | nil => exact ⟨[], rfl⟩
  | cons value rest ih =>
      rcases converted value List.mem_cons_self with ⟨image, imageEq⟩
      rcases ih fun member memberMem => converted member (List.mem_cons_of_mem value memberMem)
        with ⟨images, imagesEq⟩
      refine ⟨image :: images, ?_⟩
      rw [List.mapM_cons, imageEq, imagesEq]
      rfl

theorem exists_mem_of_mapM_eq_ok {convert : first → Except fault second} {values : List first}
    {images : List second} (converted : values.mapM convert = .ok images) {value : first}
    (valueMem : value ∈ values) :
    ∃ image ∈ images, convert value = .ok image := by
  induction values generalizing images with
  | nil => cases valueMem
  | cons head rest ih =>
      rw [List.mapM_cons] at converted
      rcases bind_eq_ok_iff.mp converted with ⟨headImage, headConverted, tailConverted⟩
      rcases bind_eq_ok_iff.mp tailConverted with ⟨restImages, restConverted, same⟩
      cases same
      rcases List.mem_cons.mp valueMem with rfl | valueMem
      · exact ⟨headImage, List.mem_cons_self, headConverted⟩
      · rcases ih restConverted valueMem with ⟨image, imageMem, valueConverted⟩
        exact ⟨image, List.mem_cons_of_mem headImage imageMem, valueConverted⟩

theorem exists_mapM_eq_error_iff {convert : first → Except fault second} {values : List first} :
    (∃ cause, values.mapM convert = .error cause) ↔
      ∃ value ∈ values, ∃ cause, convert value = .error cause := by
  constructor
  · rintro ⟨cause, failed⟩
    apply Classical.byContradiction
    intro noneFails
    have converted : ∀ value ∈ values, ∃ image, convert value = .ok image := by
      intro value valueMem
      cases imageEq : convert value with
      | ok image => exact ⟨image, rfl⟩
      | error valueCause => exact absurd ⟨value, valueMem, valueCause, imageEq⟩ noneFails
    rcases exists_mapM_of_forall converted with ⟨images, imagesEq⟩
    rw [imagesEq] at failed
    cases failed
  · rintro ⟨value, valueMem, cause, failed⟩
    cases converted : values.mapM convert with
    | error listCause => exact ⟨listCause, rfl⟩
    | ok images =>
        rcases exists_mem_of_mapM_eq_ok converted valueMem with ⟨image, _, imageEq⟩
        rw [failed] at imageEq
        cases imageEq

theorem mapM_eq_ok_iff {convert : first → Except fault second} {values : List first}
    {images : List second} :
    values.mapM convert = .ok images ↔ values.map convert = images.map .ok := by
  induction values generalizing images with
  | nil => cases images <;> simp [pure, Except.pure]
  | cons value rest ih =>
      rw [List.mapM_cons, bind_eq_ok_iff, List.map_cons]
      constructor
      · rintro ⟨image, valueConverted, finished⟩
        rcases bind_eq_ok_iff.mp finished with ⟨restImages, restConverted, same⟩
        cases same
        rw [valueConverted, ih.mp restConverted, List.map_cons]
      · intro imagesEq
        cases images with
        | nil => cases imagesEq
        | cons image images =>
            rw [List.map_cons, List.cons.injEq] at imagesEq
            exact ⟨image, imagesEq.1, bind_eq_ok_iff.mpr ⟨images, ih.mpr imagesEq.2, rfl⟩⟩

/-- Values are converted in order, up to the first that has a fault. -/
theorem mapM_eq_error_iff {convert : first → Except fault second} {values : List first}
    {cause : fault} :
    values.mapM convert = .error cause ↔
      ∃ (images : List second) (later : List (Except fault second)),
        values.map convert = images.map .ok ++ .error cause :: later := by
  induction values with
  | nil => simp [pure, Except.pure]
  | cons value rest ih =>
      rw [List.mapM_cons, bind_eq_error_iff, List.map_cons]
      constructor
      · rintro (valueFailed | ⟨image, valueConverted, restFailed⟩)
        · exact ⟨[], rest.map convert, by rw [valueFailed]; rfl⟩
        · rcases bind_eq_error_iff.mp restFailed with restFailed | ⟨_, _, finished⟩
          · rcases ih.mp restFailed with ⟨images, later, restEq⟩
            exact ⟨image :: images, later, by rw [valueConverted, restEq]; rfl⟩
          · cases finished
      · rintro ⟨images, later, imagesEq⟩
        cases images with
        | nil =>
            rw [List.map_nil, List.nil_append, List.cons.injEq] at imagesEq
            exact Or.inl imagesEq.1
        | cons image images =>
            rw [List.map_cons, List.cons_append, List.cons.injEq] at imagesEq
            have restFailed := ih.mpr ⟨images, later, imagesEq.2⟩
            exact Or.inr ⟨image, imagesEq.1, bind_eq_error_iff.mpr (Or.inl restFailed)⟩

theorem toOption_eq_some_iff {result : Except fault first} {value : first} :
    result.toOption = some value ↔ result = .ok value := by
  cases result <;> simp [Except.toOption]

/-! ## The fault of a result -/

/-- The fault of a result, if it has one. -/
def failure? : Except fault first → Option fault
  | .ok _ => none
  | .error cause => some cause

theorem failure?_eq_some_iff {result : Except fault first} {cause : fault} :
    failure? result = some cause ↔ result = .error cause := by
  cases result <;> simp [failure?]

theorem failure?_eq_none_iff {result : Except fault first} :
    failure? result = none ↔ ∃ value, result = .ok value := by
  cases result <;> simp [failure?]

theorem failure?_map {result : Except fault first} {convert : first → second} :
    failure? (result.map convert) = failure? result := by
  cases result <;> rfl

/-- A chain of steps fails with its first fault, if the fault of the later steps does not depend on
the value of the earlier one. -/
theorem failure?_bind {result : Except fault first} {next : first → Except fault second}
    {earlier later : Option fault} (earlierEq : failure? result = earlier)
    (laterEq : ∀ value, result = .ok value → failure? (next value) = later) :
    failure? (result >>= next) = earlier.or later := by
  subst earlierEq
  cases result with
  | ok value => exact laterEq value rfl
  | error cause => rfl

theorem findSome?_cons_or {find : first → Option second} {value : first} {rest : List first} :
    (value :: rest).findSome? find = (find value).or (rest.findSome? find) := by
  cases found : find value <;> simp [found]

end TikzGlyph
