import TikzGlyph.Proofs.Glyph.Relocation

/-!
# Glyphs one after the other

A source may follow another one, and the glyph of both is the glyph of the first one continued with
the second one: the elements that the second one draws before any of its groups join the last group
of the first one, and its groups come after. Elements that the first source leaves open and a byte
order mark at the start of the second one change nothing.
-/

namespace TikzGlyph

namespace Markup

theorem dropByteOrderMark_append {text : List Char} (notEmpty : text ≠ []) (rest : List Char) :
    dropByteOrderMark (text ++ rest) = dropByteOrderMark text ++ rest := by
  cases text with
  | nil => exact absurd rfl notEmpty
  | cons first others =>
      by_cases mark : first = '\ufeff'
      · subst mark
        rfl
      · rw [List.cons_append, dropByteOrderMark_cons mark, dropByteOrderMark_cons mark,
          List.cons_append]

theorem exists_eventsFrom_dropByteOrderMark (openNames : List (List Char)) (position : Nat)
    (text : List Char) :
    ∃ later, eventsFrom openNames position text =
      eventsFrom openNames later (dropByteOrderMark text) := by
  cases text with
  | nil => exact ⟨position, rfl⟩
  | cons first rest =>
      by_cases mark : first = '\ufeff'
      · subst mark
        exact ⟨position + ('\ufeff').utf8Size, rfl⟩
      · exact ⟨position, by rw [dropByteOrderMark_cons mark]⟩

/-- A source that follows another one has its own events, apart from their positions. -/
theorem exists_events_append {left right : List Char} (leftAccepted : (events left).failure = none)
    (rightAccepted : (events right).failure = none) :
    ∃ later, events (left ++ right) = ⟨(events left).events ++ later, none⟩ ∧
      later.map (Event.placedAt 0) = (events right).events.map (Event.placedAt 0) := by
  by_cases empty : left = []
  · subst empty
    refine ⟨(events right).events, ?_, rfl⟩
    change events right = ⟨(events right).events, none⟩
    rw [← rightAccepted]
  · rw [events_eq_eventsFrom] at leftAccepted rightAccepted
    rcases exists_eventsFrom_append leftAccepted with ⟨final, _, continued⟩
    rcases exists_eventsFrom_dropByteOrderMark final (0 + byteLength (dropByteOrderMark left)) right
      with ⟨offset, rightEq⟩
    rcases eventsFrom_append_below rightAccepted final offset with ⟨accepted, eventsEq⟩
    rw [List.nil_append] at accepted eventsEq
    refine ⟨(eventsFrom final offset (dropByteOrderMark right)).events, ?_, eventsEq⟩
    rw [events_eq_eventsFrom, dropByteOrderMark_append empty, continued, rightEq, Trace.prepend,
      accepted, ← events_eq_eventsFrom]

end Markup

theorem eq_of_fills_eq_of_children_eq {left right : List Group}
    (fillsEq : left.map Group.fill = right.map Group.fill)
    (childrenEq : left.map (fun group => group.children.map some) =
      right.map (fun group => group.children.map some)) :
    left = right := by
  induction left generalizing right with
  | nil => simpa using fillsEq
  | cons first rest ih =>
      rcases List.map_eq_cons_iff.mp fillsEq.symm with ⟨other, others, rfl, fillEq, othersEq⟩
      rw [List.map_cons, List.map_cons, List.cons.injEq] at childrenEq
      have sameChildren : first.children = other.children :=
        (List.map_inj_right fun _ _ => Option.some.inj).mp childrenEq.1
      have same : first = other := by
        cases first
        cases other
        simp_all
      rw [same, ih othersEq.symm childrenEq.2]

namespace Builder

open GlyphEvent

/-- Events that can be read at the start can be read after any others. What they draw before their
first group joins the last group there, and their groups come after. -/
theorem exists_foldlM_of_start {events : List GlyphEvent} {alone : Builder}
    (handled : events.foldlM handle start = .ok alone) (builder : Builder) :
    ∃ final first rest, events.foldlM handle builder = .ok final ∧
      alone.groups = first :: rest ∧
      final.groups = builder.earlier.reverse ++
        ⟨builder.last.fill, builder.last.children ++ first.children⟩ :: rest := by
  have unfailing : events.findSome? GlyphEvent.fault? = none := by
    have failed : failure? (events.foldlM handle start) = events.findSome? GlyphEvent.fault? :=
      failure?_foldlM
    rw [← failed, handled]
    rfl
  have readable : failure? (events.foldlM handle builder) = none := by
    rw [failure?_foldlM, unfailing]
  rcases failure?_eq_none_iff.mp readable with ⟨final, continued⟩
  rcases List.exists_cons_of_ne_nil (by simp [groups] : alone.groups ≠ []) with
    ⟨first, rest, aloneEq⟩
  refine ⟨final, first, rest, continued, aloneEq, ?_⟩
  have aloneFills := fills_foldlM handled
  have aloneChildren := children_foldlM handled
  rcases List.exists_cons_of_ne_nil (List.splitOnP_ne_nil boundsGroup events) with
    ⟨between, later, splitEq⟩
  rw [aloneEq] at aloneFills aloneChildren
  simp only [splitEq, start, groups, Group.empty, List.map_cons, List.reverse_cons,
    List.reverse_nil, List.nil_append, List.map_nil, List.cons_append, List.cons.injEq,
    List.modifyHead_cons] at aloneFills aloneChildren
  apply eq_of_fills_eq_of_children_eq
  · rw [fills_foldlM continued, ← aloneFills.2]
    simp [groups]
  · rw [children_foldlM continued, splitEq]
    simp [← aloneChildren.1, ← aloneChildren.2]

end Builder

theorem parseGlyph_eq_ok_iff {source : String} {groups : List Group} :
    parseGlyph source = .ok groups ↔
      (Markup.events source.toList).failure = none ∧
        ∃ builder, ((Markup.events source.toList).events.map
            (GlyphEvent.ofMarkup source.toList)).foldlM Builder.handle .start = .ok builder ∧
          builder.groups = groups := by
  rw [parseGlyph_eq_bind, bind_eq_ok_iff]
  cases failed : (Markup.events source.toList).failure <;> simp [glyphEvents, failed]

/-- A source that follows another one continues its glyph. -/
theorem parseGlyph_append {left right : String} {leftGroups rightGroups : List Group}
    (leftParsed : parseGlyph left = .ok leftGroups)
    (rightParsed : parseGlyph right = .ok rightGroups) :
    ∃ earlier last first rest,
      leftGroups = earlier ++ [last] ∧ rightGroups = first :: rest ∧
        parseGlyph (left ++ right) =
          .ok (earlier ++ ⟨last.fill, last.children ++ first.children⟩ :: rest) := by
  rcases parseGlyph_eq_ok_iff.mp leftParsed with ⟨leftAccepted, builder, leftHandled, rfl⟩
  rcases parseGlyph_eq_ok_iff.mp rightParsed with ⟨rightAccepted, alone, rightHandled, rfl⟩
  rcases Markup.exists_events_append leftAccepted rightAccepted with
    ⟨later, eventsEq, laterEq⟩
  rcases Builder.exists_foldlM_of_start rightHandled builder with
    ⟨final, first, rest, continued, aloneEq, finalEq⟩
  refine ⟨builder.earlier.reverse, builder.last, first, rest, ?_, aloneEq, ?_⟩
  · simp [Builder.groups]
  · have bothHandled : ((Markup.events (left ++ right).toList).events.map
        (GlyphEvent.ofMarkup (left ++ right).toList)).foldlM Builder.handle .start = .ok final := by
      rw [String.toList_append, eventsEq, List.map_append, List.foldlM_append]
      apply bind_eq_ok_iff.mpr
      refine ⟨builder, ?_, ?_⟩
      · exact Builder.foldlM_ofMarkup_of_placedAt left.toList _ rfl leftHandled
      · exact Builder.foldlM_ofMarkup_of_placedAt right.toList _ laterEq continued
    rw [← finalEq]
    apply parseGlyph_eq_ok_iff.mpr
    refine ⟨?_, final, bothHandled, rfl⟩
    rw [String.toList_append, eventsEq]

/-- A path after a byte order mark is drawn into the group that the source before it leaves open. -/
theorem parseGlyph_append_unclosed :
    ∃ earlier last first rest,
      parseGlyph "<svg><g fill='#fc0'>sun" = .ok (earlier ++ [last]) ∧
        parseGlyph "\ufeff<path d='M0 0'/><g/>rays" = .ok (first :: rest) ∧
        parseGlyph ("<svg><g fill='#fc0'>sun" ++ "\ufeff<path d='M0 0'/><g/>rays") =
          .ok (earlier ++ ⟨last.fill, last.children ++ first.children⟩ :: rest) := by
  have leftReadable : failure? (parseGlyph "<svg><g fill='#fc0'>sun") = none := by
    decide +kernel
  have rightReadable : failure? (parseGlyph "\ufeff<path d='M0 0'/><g/>rays") = none := by
    decide +kernel
  rcases failure?_eq_none_iff.mp leftReadable with ⟨leftGroups, leftParsed⟩
  rcases failure?_eq_none_iff.mp rightReadable with ⟨rightGroups, rightParsed⟩
  rcases parseGlyph_append leftParsed rightParsed with
    ⟨earlier, last, first, rest, rfl, rfl, joined⟩
  exact ⟨earlier, last, first, rest, leftParsed, rightParsed, joined⟩

end TikzGlyph
