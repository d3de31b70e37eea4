import TikzGlyph.Palette

/-!
# Collecting colours

What a collector holds after it has been fed: the colours it had, in front and unmoved, and every
present colour of the feed. Feeding colours that are there already changes nothing, so a glyph may
be fed once or at every one of its placements.
-/

namespace TikzGlyph

theorem insertColor_eq_self {colors : List Color} {color : Color} (present : color ∈ colors) :
    insertColor colors color = colors :=
  if_pos present

@[simp]
theorem mem_insertColor {colors : List Color} {color member : Color} :
    member ∈ insertColor colors color ↔ member ∈ colors ∨ member = color := by
  by_cases present : color ∈ colors
  · rw [insertColor_eq_self present]
    constructor
    · exact Or.inl
    · rintro (memberMem | rfl)
      · exact memberMem
      · exact present
  · simp [insertColor, present]

theorem isPrefix_insertColor (colors : List Color) (color : Color) :
    colors <+: insertColor colors color := by
  by_cases present : color ∈ colors
  · simp [insertColor_eq_self present]
  · simp [insertColor, present]

namespace Collector

theorem eq_of_colors_eq {left right : Collector} (equal : left.colors = right.colors) :
    left = right := by
  cases left
  cases right
  cases equal
  rfl

@[simp]
theorem collect_nil (collector : Collector) : collector.collect [] = collector := rfl

@[simp]
theorem collect_none (collector : Collector) (rest : List (Option Color)) :
    collector.collect (none :: rest) = collector.collect rest := rfl

@[simp]
theorem collect_some (collector : Collector) (color : Color) (rest : List (Option Color)) :
    collector.collect (some color :: rest) = (collector.insert color).collect rest := rfl

theorem collect_append (collector : Collector) (left right : List (Option Color)) :
    collector.collect (left ++ right) = (collector.collect left).collect right := by
  simp only [collect, List.filterMap_append, List.foldl_append]

/-- A collector holds what it held before and the present colours of its feed. -/
@[simp]
theorem mem_collect {collector : Collector} {feed : List (Option Color)} {color : Color} :
    color ∈ (collector.collect feed).colors ↔ color ∈ collector.colors ∨ some color ∈ feed := by
  induction feed generalizing collector with
  | nil => simp
  | cons first rest ih =>
      cases first with
      | none => simp [ih]
      | some inserted =>
          rw [collect_some, ih, insert, mem_insertColor]
          simp [or_assoc]

theorem isPrefix_collect (collector : Collector) (feed : List (Option Color)) :
    collector.colors <+: (collector.collect feed).colors := by
  induction feed generalizing collector with
  | nil => exact List.prefix_rfl
  | cons first rest ih =>
      cases first with
      | none => exact ih collector
      | some inserted =>
          have insertedContinues := isPrefix_insertColor collector.colors inserted
          exact insertedContinues.trans (ih (collector.insert inserted))

/-- Feeding colours that are all there already changes nothing. -/
theorem collect_eq_self {collector : Collector} {feed : List (Option Color)}
    (present : ∀ color, some color ∈ feed → color ∈ collector.colors) :
    collector.collect feed = collector := by
  induction feed with
  | nil => rfl
  | cons first rest ih =>
      have restPresent : ∀ color, some color ∈ rest → color ∈ collector.colors :=
        fun color colorMem => present color (List.mem_cons_of_mem first colorMem)
      cases first with
      | none => exact ih restPresent
      | some inserted =>
          have unchanged : collector.insert inserted = collector :=
            eq_of_colors_eq (insertColor_eq_self (present inserted List.mem_cons_self))
          rw [collect_some, unchanged]
          exact ih restPresent

end Collector

end TikzGlyph
