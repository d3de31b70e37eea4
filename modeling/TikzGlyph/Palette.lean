import TikzGlyph.Color
import TikzGlyph.Log

/-!
# Palettes

Colours are first collected and then frozen. A `Collector` holds the distinct colours met so far in
the order of their first occurrence. `Collector.freeze` turns it into a `Palette`, in which every
colour has the index of its place in that order.
-/

namespace TikzGlyph

/-- A list of distinct colours with one more colour at its end, unless it is there already. -/
def insertColor (colors : List Color) (color : Color) : List Color :=
  if color ∈ colors then colors else colors ++ [color]

theorem nodup_insertColor {colors : List Color} (distinct : colors.Nodup) (color : Color) :
    (insertColor colors color).Nodup := by
  unfold insertColor
  split
  · exact distinct
  · rename_i absent
    rw [List.nodup_append]
    refine ⟨distinct, by simp, ?_⟩
    intro member memberMem added addedMem equal
    rw [List.mem_singleton] at addedMem
    subst addedMem
    exact absent (equal ▸ memberMem)

/-- The colours collected so far. -/
structure Collector where
  colors : List Color
  nodup : colors.Nodup

/-- A fixed list of colours with their indices. -/
structure Palette where
  colors : List Color
  nodup : colors.Nodup

/-- A colour that has no index. -/
inductive PaletteError
  | unregistered (color : Color)
deriving DecidableEq, Repr

def PaletteError.message : PaletteError → String
  | .unregistered color => s!"Color {color.text} not in registry"

namespace Collector

def empty : Collector := ⟨[], List.nodup_nil⟩

def insert (collector : Collector) (color : Color) : Collector :=
  ⟨insertColor collector.colors color, nodup_insertColor collector.nodup color⟩

/-- Adds the colours that are present, in order. -/
def collect (collector : Collector) (colors : List (Option Color)) : Collector :=
  (colors.filterMap id).foldl insert collector

/-- Adds the colours of texts, in order, until one of them is faulty. Blank texts add nothing. The
colours before a faulty text stay. -/
def collectTexts (collector : Collector) : List String → Collector × Except ColorFormatError Unit
  | [] => (collector, .ok ())
  | text :: rest =>
      match Color.parseFill (some text) with
      | .error cause => (collector, .error cause)
      | .ok color => (collector.collect [color]).collectTexts rest

def freeze (collector : Collector) : Palette := ⟨collector.colors, collector.nodup⟩

end Collector

namespace Palette

def index (palette : Palette) (color : Color) : Except PaletteError Nat :=
  match palette.colors.idxOf? color with
  | some index => .ok index
  | none => .error (.unregistered color)

/-- Whether a colour has an index. -/
def contains (palette : Palette) (color : Color) : Bool :=
  palette.colors.contains color

/-- The colours with their indices, in order. -/
def entries (palette : Palette) : List (Nat × Color) :=
  palette.colors.zipIdx.map fun entry => (entry.2, entry.1)

def freezeLog (palette : Palette) : List LogRecord :=
  [⟨.debug, s!"Built color registry with {palette.colors.length} colors"⟩]

end Palette

end TikzGlyph
