import TikzGlyph.Proofs.Glyph.WrittenGlyph
import TikzGlyph.Proofs.Markup.Insertion

/-!
# Sources with parts that draw nothing

Only the tags that a glyph knows matter to it. A source that can be read may be followed by anything
else first, by comments, CDATA sections, processing instructions, character data and unknown tags,
and the glyph goes on after them as if they were not there. What comes after is read while the same
elements are open, and it makes no difference that it stands further on.
-/

namespace TikzGlyph

open GlyphEvent

/-- A trace has no fault, and its events lead from one builder to another. -/
structure Markup.Trace.Builds (trace : Markup.Trace) (builder final : Builder) : Prop where
  accepted : trace.failure = none
  handled : (trace.events.map (ofMarkup [])).foldlM Builder.handle builder = .ok final

namespace Markup

variable {builder final : Builder} {groups : List Group}

theorem Trace.builds_prepend_iff {trace : Trace} {events : List Event} :
    (trace.prepend events).Builds builder final ↔
      ∃ middle, (events.map (ofMarkup [])).foldlM Builder.handle builder = .ok middle ∧
        trace.Builds middle final := by
  constructor
  · rintro ⟨accepted, handled⟩
    rw [Trace.prepend, List.map_append, List.foldlM_append] at handled
    rcases bind_eq_ok_iff.mp handled with ⟨middle, firstHandled, restHandled⟩
    exact ⟨middle, firstHandled, accepted, restHandled⟩
  · rintro ⟨middle, firstHandled, accepted, restHandled⟩
    refine ⟨accepted, ?_⟩
    rw [Trace.prepend, List.map_append, foldlM_append_of_ok firstHandled]
    exact restHandled

/-- Where a text stands makes no difference to what its events build. -/
theorem builds_eventsFrom_iff {openNames : List (List Char)} {text : List Char}
    (position other : Nat) :
    (eventsFrom openNames position text).Builds builder final ↔
      (eventsFrom openNames other text).Builds builder final := by
  have moved : ∀ start goal, (eventsFrom openNames start text).Builds builder final →
      (eventsFrom openNames goal text).Builds builder final := by
    rintro start goal ⟨accepted, handled⟩
    rcases eventsFrom_append_below accepted [] goal with ⟨goalAccepted, same⟩
    rw [List.append_nil] at goalAccepted same
    exact ⟨goalAccepted, Builder.foldlM_ofMarkup_of_placedAt [] [] same handled⟩
  exact ⟨moved position other, moved other position⟩

/-- A byte order mark aside, a glyph is what the events of its source build from the start. -/
theorem parseGlyph_eq_ok_iff_builds {source : String} :
    parseGlyph source = .ok groups ↔
      ∃ final, (eventsFrom [] 0 source.toList).Builds .start final ∧ final.groups = groups := by
  rcases exists_eventsFrom_dropByteOrderMark [] 0 source.toList with ⟨later, unmarked⟩
  rw [parseGlyph_eq_ok_iff, unmarked]
  simp only [builds_eventsFrom_iff later 0, ← events_eq_eventsFrom]
  constructor
  · rintro ⟨accepted, final, handled, groupsEq⟩
    exact ⟨final, ⟨accepted, Builder.foldlM_ofMarkup_of_placedAt _ _ rfl handled⟩, groupsEq⟩
  · rintro ⟨final, ⟨accepted, handled⟩, groupsEq⟩
    exact ⟨accepted, final, Builder.foldlM_ofMarkup_of_placedAt _ _ rfl handled, groupsEq⟩

section Unknown

variable {name : Name} (unknown : String.ofList name.letters ∉ ["g", "path", "circle", "ellipse"])
include unknown

theorem not_isRecognized_opening (attributes : List Attribute) (position : Nat) :
    (ofMarkup [] (.opening name.letters attributes position)).isRecognized = false := by
  simp only [List.mem_cons, List.not_mem_nil, or_false, not_or] at unknown
  simp [ofMarkup, Tag.ofMarkup, Tag.ofName, unknown, isRecognized]

theorem not_isRecognized_closing (position : Nat) :
    (ofMarkup [] (.closing name.letters position)).isRecognized = false := by
  simp only [List.mem_cons, List.not_mem_nil, or_false, not_or] at unknown
  simp [ofMarkup, Tag.ofMarkup, Tag.ofName, unknown, isRecognized]

end Unknown

theorem not_isRecognized_of_mem_events {inserted : Insertion} {position : Nat} {event : Event}
    (eventMem : event ∈ inserted.events position) :
    (ofMarkup [] event).isRecognized = false := by
  cases inserted with
  | unknownTag tag unknown =>
      simp only [Insertion.events, List.mem_cons, List.not_mem_nil, or_false] at eventMem
      rcases eventMem with rfl | rfl
      · exact not_isRecognized_opening unknown tag.readAs position
      · exact not_isRecognized_closing unknown position
  | _ => cases eventMem

/-- Events of unknown tags build nothing. -/
theorem foldlM_of_not_isRecognized {events : List Event}
    (unknown : ∀ event ∈ events, (ofMarkup [] event).isRecognized = false) :
    (events.map (ofMarkup [])).foldlM Builder.handle builder = .ok builder := by
  have noneRecognized : (events.map (ofMarkup [])).filter isRecognized = [] := by
    rw [List.filter_eq_nil_iff, List.forall_mem_map]
    intro event eventMem
    simp [unknown event eventMem]
  rw [← Builder.foldlM_filter_isRecognized, noneRecognized]
  rfl

/-- The events of an insertion build nothing. -/
theorem builds_insertion_iff (inserted : Insertion) {openNames : List (List Char)}
    {position : Nat} {rest : List Char} :
    (eventsFrom openNames position (inserted.text ++ rest)).Builds builder final ↔
      (eventsFrom openNames position rest).Builds builder final := by
  rw [inserted.eventsFrom_text, Trace.builds_prepend_iff,
    foldlM_of_not_isRecognized fun _ => not_isRecognized_of_mem_events]
  simp only [Except.ok.injEq, exists_eq_left']
  exact builds_eventsFrom_iff _ position

end Markup

open Markup

/-- Between a source that can be read and any text, something that draws nothing may be inserted. -/
theorem parseGlyph_insert {left : String} {leftGroups : List Group}
    (leftParsed : parseGlyph left = .ok leftGroups) (inserted : Insertion) (right : String)
    (groups : List Group) :
    parseGlyph (left ++ String.ofList inserted.text ++ right) = .ok groups ↔
      parseGlyph (left ++ right) = .ok groups := by
  rcases parseGlyph_eq_ok_iff_builds.mp leftParsed with ⟨_, ⟨leftAccepted, _⟩, _⟩
  rcases exists_eventsFrom_append leftAccepted with ⟨openNames, _, continued⟩
  simp only [parseGlyph_eq_ok_iff_builds, String.toList_append, String.toList_ofList,
    List.append_assoc, continued, Trace.builds_prepend_iff, builds_insertion_iff]

/-- A comment in an open group may hold what would be markup elsewhere. -/
theorem parseGlyph_insert_comment :
    ∃ leftGroups groups, parseGlyph "<svg><g fill='#fc0'>sun" = .ok leftGroups ∧
      parseGlyph ("<svg><g fill='#fc0'>sun" ++ "rays<path d='M0 0'/></g>") = .ok groups ∧
      parseGlyph ("<svg><g fill='#fc0'>sun" ++ "<!-- <g> & > -->" ++ "rays<path d='M0 0'/></g>") =
        .ok groups := by
  have leftReadable : failure? (parseGlyph "<svg><g fill='#fc0'>sun") = none := by
    decide +kernel
  have wholeReadable :
      failure? (parseGlyph ("<svg><g fill='#fc0'>sun" ++ "rays<path d='M0 0'/></g>")) = none := by
    decide +kernel
  rcases failure?_eq_none_iff.mp leftReadable with ⟨leftGroups, leftParsed⟩
  rcases failure?_eq_none_iff.mp wholeReadable with ⟨groups, wholeParsed⟩
  refine ⟨leftGroups, groups, leftParsed, wholeParsed, ?_⟩
  exact (parseGlyph_insert leftParsed (.comment " <g> & > ".toList (by decide))
    "rays<path d='M0 0'/></g>" groups).mpr wholeParsed

end TikzGlyph
