import TikzGlyph.Proofs.Glyph.Flattening
import TikzGlyph.Proofs.Markup.Continuation

/-!
# Glyphs and the places of their tags

The place of a tag goes into the faults of its attributes and nowhere else. Two runs of events that
differ in their places only are therefore read as the same groups, or both of them have a fault.
-/

namespace TikzGlyph

def GlyphEvent.placedAt (location : Location) : GlyphEvent → GlyphEvent
  | .opening tag attributes _ => .opening tag attributes location
  | .closing tag _ => .closing tag location

theorem Attributes.fill_eq_ok_iff {attributes : Attributes} {location : Location}
    {fill : Option Color} :
    attributes.fill location = .ok fill ↔
      Color.parseFill (attributes.get? "fill") = .ok fill := by
  rw [Attributes.fill, mapError_eq_ok_iff]

namespace GlyphEvent

variable {event : GlyphEvent} {contribution : Contribution} {location : Location}

theorem contribution_placedAt_eq_ok_iff :
    (event.placedAt location).contribution = .ok contribution ↔
      event.contribution = .ok contribution := by
  cases event with
  | closing tag place => rfl
  | opening tag attributes place =>
      change opened tag attributes location = _ ↔ opened tag attributes place = _
      cases tag <;>
        simp only [opened, bind_eq_ok_iff, Attributes.required_eq_ok_iff,
          Attributes.number_eq_ok_iff, Attributes.fill_eq_ok_iff]

/-- An event of the markup keeps its tag and its attributes at every position and in every
source. -/
theorem placedAt_ofMarkup (source other : List Char) (position : Nat) (written : Markup.Event) :
    (ofMarkup source written).placedAt location =
      (ofMarkup other (written.placedAt position)).placedAt location := by
  cases written <;> rfl

end GlyphEvent

namespace Builder

open GlyphEvent

variable {builder final : Builder} {events : List GlyphEvent} {location : Location}

theorem handle_placedAt_eq_ok_iff {event : GlyphEvent} :
    builder.handle (event.placedAt location) = .ok final ↔ builder.handle event = .ok final := by
  simp only [handle, map_eq_ok_iff, contribution_placedAt_eq_ok_iff]

theorem foldlM_placedAt_eq_ok_iff :
    (events.map (placedAt location)).foldlM handle builder = .ok final ↔
      events.foldlM handle builder = .ok final := by
  induction events generalizing builder with
  | nil => rfl
  | cons event rest ih =>
      simp only [List.map_cons, List.foldlM_cons, bind_eq_ok_iff, handle_placedAt_eq_ok_iff, ih]

/-- Events of two markup texts that differ in their positions only build the same groups. -/
theorem foldlM_ofMarkup_of_placedAt {written moved : List Markup.Event} (source other : List Char)
    (same : moved.map (Markup.Event.placedAt 0) = written.map (Markup.Event.placedAt 0))
    (handled : (written.map (ofMarkup source)).foldlM handle builder = .ok final) :
    (moved.map (ofMarkup other)).foldlM handle builder = .ok final := by
  have unplaced : ∀ (text : List Char) (events : List Markup.Event),
      (events.map (ofMarkup text)).map (placedAt .start) =
        ((events.map (Markup.Event.placedAt 0)).map (ofMarkup [])).map (placedAt .start) := by
    intro text events
    simp only [List.map_map]
    apply List.map_congr_left
    intro event _
    exact placedAt_ofMarkup text [] 0 event
  have handledElsewhere :
      ((moved.map (ofMarkup other)).map (placedAt .start)).foldlM handle builder = .ok final := by
    rw [unplaced other, same, ← unplaced source]
    exact foldlM_placedAt_eq_ok_iff.mpr handled
  exact foldlM_placedAt_eq_ok_iff.mp handledElsewhere

end Builder

end TikzGlyph
