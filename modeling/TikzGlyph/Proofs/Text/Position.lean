import TikzGlyph.Proofs.Text.Location

/-!
# The places of positions

A position of a string is an offset at which one of its characters starts or at which it ends. A
position splits the string, and its place is the one after the first of the two parts. The place
therefore moves with the position, character by character, and the order of places is that of
positions: a line and a column tell the offset. All other offsets are placed at the end of the
string.
-/

namespace TikzGlyph

theorem utf8ByteSize_ofList (text : List Char) :
    (String.ofList text).utf8ByteSize = byteLength text := by
  induction text with
  | nil => rfl
  | cons first rest ih =>
      rw [← List.singleton_append, String.ofList_append, String.utf8ByteSize_append,
        ← String.singleton_eq_ofList, String.utf8ByteSize_singleton, ih, List.singleton_append,
        byteLength_cons]

/-- A string takes as many bytes as its characters. -/
theorem byteLength_toList (text : String) : byteLength text.toList = text.utf8ByteSize := by
  rw [← utf8ByteSize_ofList, String.ofList_toList]

namespace Location

variable {source before after : String} {left right : source.Pos} {offset : Nat}

/-- The place of a position of a string. -/
def ofPosition {source : String} (position : source.Pos) : Location :=
  ofOffset source.toList position.offset.byteIdx

theorem ofPosition_of_splits {position : source.Pos} (splits : position.Splits before after) :
    ofPosition position = start.afterText before.toList := by
  have sourceEq : source.toList = before.toList ++ after.toList := by
    rw [← String.toList_append, ← splits.eq_append]
  have offsetEq : position.offset.byteIdx = byteLength before.toList := by
    rw [splits.offset_eq_rawEndPos, String.byteIdx_rawEndPos, byteLength_toList]
  rw [ofPosition, sourceEq, offsetEq, ofOffset_byteLength]

theorem ofPosition_startPos (source : String) : ofPosition source.startPos = start :=
  ofPosition_of_splits source.splits_startPos

theorem ofPosition_endPos (source : String) :
    ofPosition source.endPos = start.afterText source.toList :=
  ofPosition_of_splits source.splits_endPos

/-- A step over a character moves the place as the character says. -/
theorem ofPosition_next (position : source.Pos) (notEnd : position ≠ source.endPos) :
    ofPosition (position.next notEnd) = (ofPosition position).after (position.get notEnd) := by
  rw [ofPosition_of_splits (position.splits_next notEnd),
    ofPosition_of_splits (position.splits_next_right notEnd), String.toList_append,
    afterText_append, String.toList_singleton]
  rfl

theorem ofPosition_lt_of_lt (earlier : left < right) : ofPosition left < ofPosition right := by
  rcases (left.splits.lt_iff_exists_eq_append right.splits).mp earlier with
    ⟨between, notEmpty, rightEq, _⟩
  rw [ofPosition_of_splits left.splits, ofPosition_of_splits right.splits, rightEq,
    String.toList_append]
  apply lt_afterText_append
  simpa using notEmpty

/-- The order of places is the order of positions. -/
theorem ofPosition_lt_iff (left right : source.Pos) :
    ofPosition left < ofPosition right ↔ left < right := by
  constructor
  · intro placedEarlier
    rcases Std.lt_trichotomy left right with earlier | same | later
    · exact earlier
    · exact absurd (congrArg ofPosition same) (ne_of_lt placedEarlier)
    · exact absurd placedEarlier (lt_asymm (ofPosition_lt_of_lt later))
  · exact ofPosition_lt_of_lt

/-- A line and a column tell the position that is placed there. -/
theorem ofPosition_injective (source : String) :
    Function.Injective fun position : source.Pos => ofPosition position := by
  intro left right samePlace
  rcases Std.lt_trichotomy left right with earlier | same | later
  · exact absurd samePlace (ne_of_lt (ofPosition_lt_of_lt earlier))
  · exact same
  · exact absurd samePlace.symm (ne_of_lt (ofPosition_lt_of_lt later))

/-- An offset that is no position is placed at the end. -/
theorem ofOffset_of_not_isValid (noPosition : ¬String.Pos.Raw.IsValid source ⟨offset⟩) :
    ofOffset source.toList offset = ofPosition source.endPos := by
  rw [ofPosition_endPos]
  rcases ofOffset_cases source.toList offset with ⟨before, after, sourceEq, rfl⟩ | atEnd
  · refine absurd ?_ noPosition
    rw [String.Pos.Raw.isValid_iff_exists_append]
    refine ⟨.ofList before, .ofList after, ?_, ?_⟩
    · rw [← String.ofList_append, ← sourceEq, String.ofList_toList]
    · rw [← utf8ByteSize_ofList]
      rfl
  · exact atEnd

/-- Places identify positions. The first position is at line 1 and column 1, and a step over a
character goes to the next column, or to the start of the next line after a newline. Places are
ordered as their positions are, so no two positions share one. An offset within a character or past
the end is placed at the end. -/
theorem places_identify_positions (source : String) :
    ofPosition source.startPos = ⟨1, 1⟩ ∧
      (∀ (position : source.Pos) (notEnd : position ≠ source.endPos),
        ofPosition (position.next notEnd) =
          if position.get notEnd = '\n' then ⟨(ofPosition position).line + 1, 1⟩
          else ⟨(ofPosition position).line, (ofPosition position).column + 1⟩) ∧
      (∀ left right : source.Pos, ofPosition left < ofPosition right ↔ left < right) ∧
      (Function.Injective fun position : source.Pos => ofPosition position) ∧
      ∀ offset, ¬String.Pos.Raw.IsValid source ⟨offset⟩ →
        ofOffset source.toList offset = ofPosition source.endPos := by
  refine ⟨ofPosition_startPos source, ?_, ofPosition_lt_iff, ofPosition_injective source, ?_⟩
  · intro position notEnd
    exact ofPosition_next position notEnd
  · intro offset noPosition
    exact ofOffset_of_not_isValid noPosition

/-- The newline after a character of two bytes ends the first line, and an offset within the
character of three bytes after it is placed at the end. -/
theorem place_after_newline_and_within_character :
    ∃ (newline : "é\n☀".Pos) (notEnd : newline ≠ "é\n☀".endPos),
      newline.get notEnd = '\n' ∧ ofPosition newline = ⟨1, 2⟩ ∧
      ofPosition (newline.next notEnd) = ⟨2, 1⟩ ∧
      ¬String.Pos.Raw.IsValid "é\n☀" ⟨4⟩ ∧ ofOffset "é\n☀".toList 4 = ⟨2, 2⟩ := by
  have splits : (⟨⟨2⟩, by decide⟩ : "é\n☀".Pos).Splits "é" (.singleton '\n' ++ "☀") := ⟨rfl, rfl⟩
  have notEnd := splits.ne_endPos_of_singleton
  have newline := splits.next.get_eq_of_singleton
  have placed : ofPosition (⟨⟨2⟩, by decide⟩ : "é\n☀".Pos) = ⟨1, 2⟩ := by decide
  have stepped := (places_identify_positions "é\n☀").2.1 _ notEnd
  rw [if_pos newline, placed] at stepped
  have noPosition : ¬String.Pos.Raw.IsValid "é\n☀" ⟨4⟩ := by decide
  have atEnd := (places_identify_positions "é\n☀").2.2.2.2 4 noPosition
  have endPlace : ofPosition "é\n☀".endPos = ⟨2, 2⟩ := by decide
  exact ⟨_, notEnd, newline, placed, stepped, noPosition, atEnd.trans endPlace⟩

end Location

end TikzGlyph
