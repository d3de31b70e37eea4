import TikzGlyph.Drawing.Emit
import TikzGlyph.Proofs.Palette.Collecting
import TikzGlyph.Proofs.Result

/-!
# Looking colours up

The index of a colour is its place in the palette, and since a palette holds no colour twice the
place determines the colour. Colours keep their indices in every palette that continues this one.
-/

namespace TikzGlyph

namespace Palette

/-! ## Entries -/

theorem map_fst_entries (palette : Palette) :
    palette.entries.map Prod.fst = List.range palette.colors.length := by
  simp [entries, List.zipIdx_map_snd, Function.comp_def, List.range_eq_range']

theorem map_snd_entries (palette : Palette) : palette.entries.map Prod.snd = palette.colors := by
  simp [entries, List.zipIdx_map_fst, Function.comp_def]

theorem mem_entries_iff {palette : Palette} {color : Color} {index : Nat} :
    (index, color) ∈ palette.entries ↔ palette.colors[index]? = some color := by
  simp only [entries, List.mem_map, Prod.exists, List.mem_zipIdx_iff_getElem?, Prod.mk.injEq]
  constructor
  · rintro ⟨_, _, found, rfl, rfl⟩
    exact found
  · intro found
    exact ⟨color, index, found, rfl, rfl⟩

theorem getElem?_entries (palette : Palette) (index : Nat) :
    palette.entries[index]? = palette.colors[index]?.map fun color => (index, color) := by
  rw [entries, List.getElem?_map, List.getElem?_zipIdx, Nat.zero_add]
  cases palette.colors[index]? <;> rfl

theorem eq_of_colors_eq {left right : Palette} (same : left.colors = right.colors) :
    left = right := by
  cases left
  cases right
  cases same
  rfl

/-! ## Indices -/

@[simp]
theorem contains_iff {palette : Palette} {color : Color} :
    palette.contains color = true ↔ color ∈ palette.colors := by
  simp [contains]

theorem index_eq_ok_iff {palette : Palette} {color : Color} {index : Nat} :
    palette.index color = .ok index ↔ palette.colors[index]? = some color := by
  have place : palette.colors.idxOf? color = some index ↔ palette.colors[index]? = some color := by
    rw [List.idxOf?_eq_some_iff, List.getElem?_eq_some_iff]
    apply exists_congr
    intro inside
    constructor
    · exact And.left
    · intro stands
      refine ⟨stands, ?_⟩
      intro earlier earlierLt same
      have earlierInside : earlier < palette.colors.length := by omega
      have placesEq := (List.getElem?_inj earlierInside palette.nodup (j := index)).mp (by
        rw [List.getElem?_eq_getElem earlierInside, List.getElem?_eq_getElem inside, same, stands])
      omega
  rw [← place]
  simp only [Palette.index]
  cases palette.colors.idxOf? color <;> simp

/-- Exactly the colours outside the palette have no index, and the fault names the colour. -/
theorem index_eq_error_iff {palette : Palette} {color : Color} {cause : PaletteError} :
    palette.index color = .error cause ↔
      color ∉ palette.colors ∧ cause = .unregistered color := by
  rw [← List.idxOf?_eq_none_iff]
  simp only [Palette.index]
  cases palette.colors.idxOf? color <;> simp [eq_comm]

theorem exists_index {palette : Palette} {color : Color} (present : color ∈ palette.colors) :
    ∃ index, palette.index color = .ok index := by
  rcases List.getElem?_of_mem present with ⟨index, stands⟩
  exact ⟨index, index_eq_ok_iff.mpr stands⟩

/-- A palette that continues another one gives its colours the same indices. -/
theorem index_of_continued {palette longer : Palette} (continued : palette.colors <+: longer.colors)
    {color : Color} {index : Nat} (found : palette.index color = .ok index) :
    longer.index color = .ok index := by
  rw [index_eq_ok_iff] at found ⊢
  rcases continued with ⟨added, addedEq⟩
  rcases List.getElem?_eq_some_iff.mp found with ⟨inside, _⟩
  rw [← addedEq, List.getElem?_append_left inside]
  exact found

theorem resolve_eq_ok_iff {palette : Palette} {fill : Option Color} {argument : Option Nat} :
    palette.resolve fill = .ok argument ↔
      (fill = none ∧ argument = none) ∨
        ∃ color index, fill = some color ∧ argument = some index ∧
          palette.index color = .ok index := by
  cases fill with
  | none => simp [resolve, eq_comm]
  | some color =>
      simp only [resolve, mapError_eq_ok_iff, map_eq_ok_iff]
      constructor
      · rintro ⟨index, found, rfl⟩
        exact Or.inr ⟨color, index, rfl, rfl, found⟩
      · rintro (⟨absent, _⟩ | ⟨_, index, same, rfl, found⟩)
        · cases absent
        · cases same
          exact ⟨index, found, rfl⟩

theorem resolve_eq_error_iff {palette : Palette} {fill : Option Color} {cause : RenderError} :
    palette.resolve fill = .error cause ↔
      ∃ color, fill = some color ∧ color ∉ palette.colors ∧
        cause = .palette (.unregistered color) := by
  cases fill with
  | none => simp [resolve]
  | some color =>
      simp only [resolve, mapError_eq_error_iff, map_eq_error_iff, index_eq_error_iff]
      constructor
      · rintro ⟨_, ⟨absent, rfl⟩, rfl⟩
        exact ⟨color, rfl, absent, rfl⟩
      · rintro ⟨_, same, absent, rfl⟩
        cases same
        exact ⟨_, ⟨absent, rfl⟩, rfl⟩

theorem resolve_of_continued {palette longer : Palette}
    (continued : palette.colors <+: longer.colors)
    {fill : Option Color} {argument : Option Nat} (resolved : palette.resolve fill = .ok argument) :
    longer.resolve fill = .ok argument := by
  rw [resolve_eq_ok_iff] at resolved ⊢
  rcases resolved with absent | ⟨color, index, present, indexed, found⟩
  · exact Or.inl absent
  · exact Or.inr ⟨color, index, present, indexed, index_of_continued continued found⟩

end Palette

end TikzGlyph
