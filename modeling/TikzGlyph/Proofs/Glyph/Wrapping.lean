import TikzGlyph.Catalog.Basic
import TikzGlyph.Proofs.Document.Prepared
import TikzGlyph.Proofs.Glyph.Insertion

/-!
# Glyphs in documents of their own

A fragment is wrapped in a document by an opening tag before it and its end tag after it. No glyph
knows this tag, so the wrapped fragment is read as the same glyph whenever it can be read at all.
The end tag closes the innermost open element. This is the wrapper if the fragment closes all its
elements; otherwise it is one of the fragment, and only one of the same name can be closed.
-/

namespace TikzGlyph

open GlyphEvent

namespace Markup

/-- A text between an opening tag and its end tag. -/
def WrittenTag.wrap (tag : WrittenTag) (text : List Char) : List Char :=
  '<' :: tag.content ++ '>' :: (text ++ '<' :: ('/' :: tag.name.letters) ++ ['>'])

/-- An attribute after one space, without space around its equals sign. -/
def WrittenAttribute.afterSpace (name : Name) (value : List Char) : WrittenAttribute :=
  ⟨.blank, List.cons_ne_nil _ _, name, .empty, .empty, value⟩

/-- The fault of an end tag with a name after a text that leaves some elements open, innermost
first. -/
def endFault? (name : List Char) : (openNames : List (List Char)) → Option Error
  | [] => none
  | innermost :: _ =>
      if innermost = name then none
      else some (.structural (.mismatchedEnd (String.ofList innermost) (String.ofList name)))

/-- A byte order mark makes no difference to the events of a text but for their positions. -/
theorem placedAt_eventsFrom {text : List Char} (accepted : (eventsFrom [] 0 text).failure = none) :
    (eventsFrom [] 0 text).events.map (Event.placedAt 0) =
      (events text).events.map (Event.placedAt 0) := by
  rcases exists_eventsFrom_dropByteOrderMark [] 0 text with ⟨later, unmarked⟩
  rw [unmarked] at accepted ⊢
  exact (eventsFrom_append_below accepted [] 0).2.symm

/-- The end tag of a wrapper closes the wrapper or the innermost element above it. -/
theorem exists_eventsFrom_wrapperEnd (name : Name) (openNames : List (List Char)) (position : Nat) :
    ∃ closing, eventsFrom (openNames ++ [name.letters]) position
          ('<' :: ('/' :: name.letters) ++ ['>']) =
        ⟨closing, endFault? name.letters openNames⟩ ∧
      ∀ event ∈ closing, ∃ place, event = .closing name.letters place := by
  have closed : ∀ outer, eventsFrom (name.letters :: outer) position
      ('<' :: ('/' :: name.letters) ++ ['>']) = ⟨[.closing name.letters position], none⟩ := by
    intro outer
    have ended := eventsFrom_endTag outer position [] name ⟨[], by simp⟩
    rw [List.append_nil] at ended
    exact ended
  have oneClosing : ∀ event ∈ [Event.closing name.letters position],
      ∃ place, event = .closing name.letters place := by
    simp
  cases openNames with
  | nil => exact ⟨_, closed [], oneClosing⟩
  | cons innermost outer =>
      by_cases same : innermost = name.letters
      · subst same
        refine ⟨_, ?_, oneClosing⟩
        rw [endFault?, if_pos rfl]
        exact closed (outer ++ [name.letters])
      · refine ⟨[], ?_, by simp⟩
        have refused :=
          eventsFrom_endTag_of_ne same (outer ++ [name.letters]) position [] ⟨[], by simp⟩
        rw [List.append_nil] at refused
        rw [endFault?, if_neg same]
        exact refused

/-- The events of a wrapped text are those of the wrapper around those of the text. -/
theorem exists_events_wrap (tag : WrittenTag) {text : List Char}
    (accepted : (eventsFrom [] 0 text).failure = none) :
    ∃ openNames written closing, leftOpen? [] (events text).events = some openNames ∧
      written.map (Event.placedAt 0) = (eventsFrom [] 0 text).events.map (Event.placedAt 0) ∧
      events (tag.wrap text) =
        ⟨tag.openingEvent 0 :: (written ++ closing), endFault? tag.name.letters openNames⟩ ∧
      ∀ event ∈ closing, ∃ place, event = .closing tag.name.letters place := by
  rcases exists_eventsFrom_append accepted with ⟨openNames, leftOpen, _⟩
  rcases eventsFrom_append_below accepted [tag.name.letters]
    (0 + byteLength tag.content + 2) with ⟨wrappedAccepted, same⟩
  rcases exists_eventsFrom_append wrappedAccepted with ⟨allOpen, allLeftOpen, continued⟩
  have allOpenEq : allOpen = openNames ++ [tag.name.letters] := by
    have below := leftOpen?_append_below leftOpen [tag.name.letters]
    rw [leftOpen?_of_placedAt same, below] at allLeftOpen
    exact (Option.some.inj allLeftOpen).symm
  rcases exists_eventsFrom_wrapperEnd tag.name openNames
    (0 + byteLength tag.content + 2 + byteLength text) with ⟨closing, ended, onlyClosing⟩
  refine ⟨openNames, _, closing, ?_, same, ?_, onlyClosing⟩
  · rw [← leftOpen?_of_placedAt (placedAt_eventsFrom accepted), leftOpen]
  · have unmarked : dropByteOrderMark (tag.wrap text) = tag.wrap text :=
      dropByteOrderMark_cons (by decide) _
    have textEq : tag.wrap text = '<' :: tag.content ++ '>' ::
        (text ++ ('<' :: ('/' :: tag.name.letters) ++ ['>'])) := by
      simp [WrittenTag.wrap]
    rw [events_eq_eventsFrom, unmarked, textEq, tag.eventsFrom_startTag]
    change (eventsFrom ([] ++ [tag.name.letters]) _ _).prepend _ = _
    rw [continued, allOpenEq, ended]
    rfl

end Markup

open Markup

/-- The attributes of the tag that opens a document around a fragment. -/
def standaloneAttributes : List WrittenAttribute :=
  [.afterSpace ⟨['x', 'm', 'l', 'n', 's'], List.cons_ne_nil _ _, List.all_eq_true.mp rfl⟩
      "http://www.w3.org/2000/svg".toList,
    .afterSpace ⟨['v', 'i', 'e', 'w', 'B', 'o', 'x'], List.cons_ne_nil _ _,
      List.all_eq_true.mp rfl⟩ "0 0 36 36".toList]

theorem nodup_standaloneAttributes :
    (standaloneAttributes.map fun written => written.name.letters).Nodup := by
  decide +kernel

/-- The tag that opens a document around a fragment. -/
def standaloneTag : WrittenTag where
  name := ⟨['s', 'v', 'g'], List.cons_ne_nil _ _, List.all_eq_true.mp rfl⟩
  attributes := standaloneAttributes
  distinct := nodup_standaloneAttributes
  after := .empty

theorem toList_standaloneSvg (fragment : String) :
    (standaloneSvg fragment).toList = standaloneTag.wrap fragment.toList := by
  have opening : "<svg xmlns=\"http://www.w3.org/2000/svg\" viewBox=\"0 0 36 36\">".toList =
      '<' :: standaloneTag.content ++ ['>'] := by
    decide +kernel
  have ending : "</svg>".toList = '<' :: ('/' :: standaloneTag.name.letters) ++ ['>'] := by
    decide +kernel
  change ("<svg xmlns=\"http://www.w3.org/2000/svg\" viewBox=\"0 0 36 36\">" ++ fragment ++
    "</svg>").toList = _
  rw [String.toList_append, String.toList_append, opening, ending]
  simp only [WrittenTag.wrap, List.append_assoc, List.cons_append, List.nil_append]

/-- Events that can be built are read as a glyph, or they end in a fault of the markup. -/
theorem parseGlyph_of_events {source : String} {written : List Markup.Event}
    {failure : Option Markup.Error} {final : Builder}
    (eventsEq : Markup.events source.toList = ⟨written, failure⟩)
    (handled : (written.map (ofMarkup [])).foldlM Builder.handle .start = .ok final) :
    parseGlyph source = failure.elim (.ok final.groups) fun cause => .error (.markup cause) := by
  have sourceHandled : (written.map (ofMarkup source.toList)).foldlM Builder.handle .start =
      .ok final :=
    Builder.foldlM_ofMarkup_of_placedAt [] _ rfl handled
  simp only [parseGlyph, glyphEvents, eventsEq, sourceHandled]
  cases failure <;> rfl

/-- A wrapped fragment is the same glyph, or the end tag of the wrapper is a fault. -/
theorem exists_parseGlyph_wrap {tag : WrittenTag}
    (unknown : String.ofList tag.name.letters ∉ ["g", "path", "circle", "ellipse"])
    {fragment : String} {groups : List Group} (parsed : parseGlyph fragment = .ok groups) :
    ∃ openNames, leftOpen? [] (events fragment.toList).events = some openNames ∧
      parseGlyph (String.ofList (tag.wrap fragment.toList)) =
        (endFault? tag.name.letters openNames).elim (.ok groups) fun cause =>
          .error (.markup cause) := by
  rcases parseGlyph_eq_ok_iff_builds.mp parsed with ⟨final, ⟨accepted, handled⟩, rfl⟩
  rcases exists_events_wrap tag accepted with
    ⟨openNames, written, closing, leftOpen, same, eventsEq, onlyClosing⟩
  refine ⟨openNames, leftOpen, ?_⟩
  have openingPassed : Builder.start.handle (ofMarkup [] (tag.openingEvent 0)) = .ok .start :=
    Builder.handle_of_not_isRecognized (not_isRecognized_opening unknown tag.readAs 0)
  have closingPassed : (closing.map (ofMarkup [])).foldlM Builder.handle final = .ok final := by
    apply foldlM_of_not_isRecognized
    intro event eventMem
    rcases onlyClosing event eventMem with ⟨place, rfl⟩
    exact not_isRecognized_closing unknown place
  apply parseGlyph_of_events (by rw [String.toList_ofList, eventsEq])
  rw [List.map_cons, foldlM_cons_of_ok openingPassed, List.map_append,
    foldlM_append_of_ok (Builder.foldlM_ofMarkup_of_placedAt [] [] same handled), closingPassed]

/-- A glyph in a document of its own is the same glyph with the same preview if the fragment closes
its elements, or if the innermost one it leaves open is of the name of the wrapper. Otherwise the
end tag of the wrapper does not match, which is the fault of both. -/
theorem parseGlyph_standaloneSvg {fragment : String} {groups : List Group}
    (parsed : parseGlyph fragment = .ok groups) :
    ∃ openNames text, leftOpen? [] (events fragment.toList).events = some openNames ∧
      preview fragment = .ok text ∧
      (openNames = [] ∨ openNames.head? = some "svg".toList →
        parseGlyph (standaloneSvg fragment) = .ok groups ∧
          preview (standaloneSvg fragment) = .ok text) ∧
      ∀ innermost, openNames.head? = some innermost → innermost ≠ "svg".toList →
        parseGlyph (standaloneSvg fragment) =
            .error (.markup (.structural (.mismatchedEnd (String.ofList innermost) "svg"))) ∧
          preview (standaloneSvg fragment) =
            .error (.parse (.markup
              (.structural (.mismatchedEnd (String.ofList innermost) "svg")))) := by
  have unknown : String.ofList standaloneTag.name.letters ∉ ["g", "path", "circle", "ellipse"] := by
    decide +kernel
  have nameEq : standaloneTag.name.letters = "svg".toList := by decide +kernel
  rcases exists_parseGlyph_wrap unknown parsed with ⟨openNames, leftOpen, wrapped⟩
  rw [← toList_standaloneSvg, String.ofList_toList, nameEq] at wrapped
  have readable : parseSource fragment = .ok groups := mapError_eq_ok_iff.mpr parsed
  rcases DocumentPlan.exists_preview_of_parseSource readable with ⟨text, previewed⟩
  refine ⟨openNames, text, leftOpen, previewed, ?_, ?_⟩
  · intro closable
    have noFault : endFault? "svg".toList openNames = none := by
      cases openNames with
      | nil => rfl
      | cons innermost _ =>
          have same : innermost = "svg".toList := by simpa using closable
          rw [endFault?, if_pos same]
    rw [noFault] at wrapped
    have wrappedReadable : parseSource (standaloneSvg fragment) = .ok groups :=
      mapError_eq_ok_iff.mpr wrapped
    refine ⟨wrapped, ?_⟩
    rw [← previewed, preview, preview, wrappedReadable, readable]
  · intro innermost innermostEq other
    have fault : endFault? "svg".toList openNames =
        some (.structural (.mismatchedEnd (String.ofList innermost) "svg")) := by
      rcases List.head?_eq_some_iff.mp innermostEq with ⟨outer, rfl⟩
      rw [endFault?, if_neg other, String.ofList_toList]
    rw [fault] at wrapped
    refine ⟨wrapped, ?_⟩
    rw [preview, parseSource, wrapped]
    rfl

/-- A fragment may leave an element of the name of the wrapper open, but not a group. -/
theorem parseGlyph_standaloneSvg_unclosed :
    (∃ groups text, parseGlyph "<svg>\n<circle cx='1' cy='2' r='3'/>more" = .ok groups ∧
        parseGlyph (standaloneSvg "<svg>\n<circle cx='1' cy='2' r='3'/>more") = .ok groups ∧
        preview "<svg>\n<circle cx='1' cy='2' r='3'/>more" = .ok text ∧
        preview (standaloneSvg "<svg>\n<circle cx='1' cy='2' r='3'/>more") = .ok text) ∧
      (∃ groups, parseGlyph "<svg><g>" = .ok groups) ∧
      parseGlyph (standaloneSvg "<svg><g>") =
        .error (.markup (.structural (.mismatchedEnd "g" "svg"))) := by
  constructor
  · have readable :
        failure? (parseGlyph "<svg>\n<circle cx='1' cy='2' r='3'/>more") = none := by
      decide +kernel
    have leavesOpen :
        leftOpen? [] (events "<svg>\n<circle cx='1' cy='2' r='3'/>more".toList).events =
          some ["svg".toList] := by
      decide +kernel
    rcases failure?_eq_none_iff.mp readable with ⟨groups, parsed⟩
    rcases parseGlyph_standaloneSvg parsed with ⟨openNames, text, leftOpen, previewed, same, -⟩
    rw [leavesOpen] at leftOpen
    cases leftOpen
    rcases same (.inr rfl) with ⟨wrapped, wrappedPreviewed⟩
    exact ⟨groups, text, parsed, wrapped, previewed, wrappedPreviewed⟩
  · have readable : failure? (parseGlyph "<svg><g>") = none := by decide +kernel
    have leavesOpen : leftOpen? [] (events "<svg><g>".toList).events =
        some ["g".toList, "svg".toList] := by
      decide +kernel
    rcases failure?_eq_none_iff.mp readable with ⟨groups, parsed⟩
    rcases parseGlyph_standaloneSvg parsed with ⟨openNames, text, leftOpen, -, -, refused⟩
    rw [leavesOpen] at leftOpen
    cases leftOpen
    have fault := (refused "g".toList rfl (by decide)).1
    rw [String.ofList_toList] at fault
    exact ⟨⟨groups, parsed⟩, fault⟩

end TikzGlyph
