import TikzGlyph.Proofs.Palette.Lookup

/-!
# Histories of collecting

A collector is fed with colours and with texts of colours, any number of times and in any order. A
faulty text ends only the call that it is in: the colours before it stay, and the next call goes on
from there. Whatever the history, the palette numbers the distinct colours that were fed in the
order of their first occurrence, so an index never changes once its colour has been fed.

All of this follows from one equation: a collector that is fed holds its colours and after them the
new ones, each where it occurs first.
-/

namespace TikzGlyph

/-- A call that feeds a collector. -/
inductive Feeding
  | colors (fills : List (Option Color))
  | texts (spellings : List String)
deriving DecidableEq, Repr

namespace Feeding

/-- Whether a text is blank or a colour. -/
def isAccepted (text : String) : Bool := (Color.parseFill (some text)).isOk

def color? (text : String) : Option Color := (Color.parseFill (some text)).toOption.join

theorem isAccepted_iff {text : String} :
    isAccepted text = true ↔ failure? (Color.parseFill (some text)) = none := by
  cases parsed : Color.parseFill (some text) <;>
    simp [isAccepted, parsed, failure?, Except.isOk, Except.toBool]

/-- The colours that a call feeds: those that are present, and of texts those before the first
faulty one. -/
def fed : Feeding → List Color
  | .colors fills => fills.filterMap id
  | .texts spellings => (spellings.takeWhile isAccepted).filterMap color?

/-- The collector after a call, and how the call ends. -/
def run (collector : Collector) : Feeding → Collector × Except ColorFormatError Unit
  | .colors fills => (collector.collect fills, .ok ())
  | .texts spellings => collector.collectTexts spellings

end Feeding

/-- The collector after a history of calls, any of which may have failed. -/
def Collector.feed (collector : Collector) (history : List Feeding) : Collector :=
  history.foldl (fun current feeding => (feeding.run current).1) collector

/-- A palette numbers the colours of a feed in the order of their first occurrence. -/
structure Palette.Numbers (palette : Palette) (feed : List Color) : Prop where
  colors_eq : palette.entries.map Prod.snd = feed.eraseDups
  indices_eq : palette.entries.map Prod.fst = List.range palette.colors.length
  index_iff : ∀ color index,
    palette.index color = .ok index ↔ palette.entries[index]? = some (index, color)
  contains_iff_mem : ∀ color, palette.contains color = true ↔ color ∈ feed
  indexed_iff_mem : ∀ color, (∃ index, palette.index color = .ok index) ↔ color ∈ feed
  unregistered : ∀ color, color ∉ feed → palette.index color = .error (.unregistered color)
  index_of_first : ∀ color before after, feed = before ++ color :: after → color ∉ before →
    palette.index color = .ok before.eraseDups.length

/-! ## One call -/

namespace Collector

variable {collector : Collector} {feed : List Color} {texts : List String}

theorem colors_collect :
    (collector.collect (feed.map some)).colors =
      collector.colors ++ (feed.filter (· ∉ collector.colors)).eraseDups := by
  induction feed generalizing collector with
  | nil => simp
  | cons first rest ih =>
      rw [List.map_cons, collect_some, ih, insert]
      by_cases present : first ∈ collector.colors
      · simp [insertColor_eq_self present, present]
      · have newColors :
            rest.filter (fun color => decide (color ∉ insertColor collector.colors first)) =
              (rest.filter (fun color => decide (color ∉ collector.colors))).filter
                (fun color => !color == first) := by
          rw [List.filter_filter]
          apply List.filter_congr
          intro color _
          by_cases same : color = first <;> simp [same]
        rw [newColors, List.filter_cons_of_pos (by simpa using present), List.eraseDups_cons]
        simp [insertColor, present]

theorem colors_collect_empty : (empty.collect (feed.map some)).colors = feed.eraseDups := by
  have allNew : feed.filter (· ∉ empty.colors) = feed := by simp [empty]
  rw [colors_collect, allNew]
  rfl

theorem collectTexts_fst :
    (collector.collectTexts texts).1 =
      collector.collect ((Feeding.fed (.texts texts)).map some) := by
  induction texts generalizing collector with
  | nil => simp [collectTexts, Feeding.fed]
  | cons text rest ih =>
      rw [collectTexts]
      cases parsed : Color.parseFill (some text) with
      | error cause => simp [Feeding.fed, Feeding.isAccepted, parsed, Except.isOk, Except.toBool]
      | ok fill =>
          rw [ih]
          cases fill <;>
            simp [Feeding.fed, Feeding.isAccepted, Feeding.color?, parsed, Except.isOk,
              Except.toBool, Except.toOption]

theorem failure?_collectTexts :
    failure? (collector.collectTexts texts).2 =
      texts.findSome? fun text => failure? (Color.parseFill (some text)) := by
  induction texts generalizing collector with
  | nil => rfl
  | cons text rest ih =>
      rw [collectTexts, List.findSome?_cons]
      cases Color.parseFill (some text) with
      | error cause => rfl
      | ok fill => exact ih

/-- A call with a faulty text fails at the first such text and has fed the colours before it. -/
theorem run_texts_eq_error_iff {cause : ColorFormatError} :
    ((Feeding.texts texts).run collector).2 = .error cause ↔
      ∃ before faulty after, texts = before ++ faulty :: after ∧
        Color.parseFill (some faulty) = .error cause ∧
        (∀ text ∈ before, Feeding.isAccepted text = true) ∧
        Feeding.fed (.texts texts) = before.filterMap Feeding.color? := by
  change (collector.collectTexts texts).2 = .error cause ↔ _
  rw [← failure?_eq_some_iff, failure?_collectTexts, List.findSome?_eq_some_iff]
  constructor
  · rintro ⟨before, faulty, after, rfl, failed, beforeUnfailing⟩
    have accepted : ∀ text ∈ before, Feeding.isAccepted text = true :=
      fun text textMem => Feeding.isAccepted_iff.mpr (beforeUnfailing text textMem)
    have refused : ¬ Feeding.isAccepted faulty = true := by
      rw [Feeding.isAccepted_iff, failed]
      simp
    refine ⟨before, faulty, after, rfl, failure?_eq_some_iff.mp failed, accepted, ?_⟩
    rw [Feeding.fed, List.takeWhile_append_of_pos accepted, List.takeWhile_cons_of_neg refused,
      List.append_nil]
  · rintro ⟨before, faulty, after, textsEq, failed, accepted, _⟩
    refine ⟨before, faulty, after, textsEq, failure?_eq_some_iff.mpr failed, ?_⟩
    intro text textMem
    exact Feeding.isAccepted_iff.mp (accepted text textMem)

theorem run_fst (feeding : Feeding) :
    (feeding.run collector).1 = collector.collect (feeding.fed.map some) := by
  cases feeding with
  | texts spellings => exact collectTexts_fst
  | colors fills =>
      change collector.collect fills = collector.collect ((fills.filterMap id).map some)
      simp [collect]

/-! ## All calls -/

/-- Only the colours fed by the calls count, not how they are spread over the calls. -/
theorem feed_eq_collect (history : List Feeding) :
    collector.feed history = collector.collect ((history.flatMap Feeding.fed).map some) := by
  induction history generalizing collector with
  | nil => rfl
  | cons first rest ih =>
      rw [List.flatMap_cons, List.map_append, collect_append, ← run_fst, ← ih]
      rfl

theorem feed_append (earlier later : List Feeding) :
    collector.feed (earlier ++ later) = (collector.feed earlier).feed later := by
  simp only [feed, List.foldl_append]

theorem isPrefix_feed (history : List Feeding) :
    collector.colors <+: (collector.feed history).colors := by
  rw [feed_eq_collect]
  exact isPrefix_collect _ _

theorem mem_feed {history : List Feeding} {color : Color} :
    color ∈ (collector.feed history).colors ↔
      color ∈ collector.colors ∨ color ∈ history.flatMap Feeding.fed := by
  rw [feed_eq_collect, mem_collect]
  simp

end Collector

/-! ## The palette -/

theorem Palette.numbers_of_colors_eq {palette : Palette} {feed : List Color}
    (colorsEq : palette.colors = feed.eraseDups) : palette.Numbers feed := by
  have memIff : ∀ color, color ∈ palette.colors ↔ color ∈ feed := by
    intro color
    rw [colorsEq, List.mem_eraseDups]
  refine ⟨?_, ?_, ?_, ?_, ?_, ?_, ?_⟩
  · rw [← colorsEq]
    exact map_snd_entries palette
  · exact map_fst_entries palette
  · intro color index
    rw [index_eq_ok_iff, getElem?_entries]
    simp
  · intro color
    rw [contains_iff, memIff]
  · intro color
    constructor
    · rintro ⟨index, found⟩
      rw [index_eq_ok_iff] at found
      exact (memIff color).mp (List.mem_of_getElem? found)
    · intro fed
      exact exists_index ((memIff color).mpr fed)
  · intro color neverFed
    exact index_eq_error_iff.mpr ⟨fun present => neverFed ((memIff color).mp present), rfl⟩
  · intro color before after feedEq new
    have stands : palette.colors[before.eraseDups.length]? = some color := by
      rw [colorsEq, feedEq, List.eraseDups_append, List.getElem?_append_right (Nat.le_refl _),
        Nat.sub_self, List.removeAll, List.filter_cons_of_pos (by simpa using new),
        List.eraseDups_cons]
      rfl
    exact index_eq_ok_iff.mpr stands

/-- Whatever a collector has been fed, the palette numbers the distinct colours of the feed. A call
with a faulty text fails at the first such text and has fed the colours before it. Later calls
change no index that exists, and feeding the same colours again changes nothing. -/
theorem Palette.numbers_history (history : List Feeding) :
    (Collector.empty.feed history).freeze.Numbers (history.flatMap Feeding.fed) ∧
      (∀ texts cause,
        ((Feeding.texts texts).run (Collector.empty.feed history)).2 = .error cause ↔
          ∃ before faulty after, texts = before ++ faulty :: after ∧
            Color.parseFill (some faulty) = .error cause ∧
            (∀ text ∈ before, Feeding.isAccepted text = true) ∧
            Feeding.fed (.texts texts) = before.filterMap Feeding.color?) ∧
      (∀ later color index, (Collector.empty.feed history).freeze.index color = .ok index →
        (Collector.empty.feed (history ++ later)).freeze.index color = .ok index) ∧
      ∀ later, (∀ color ∈ later.flatMap Feeding.fed, color ∈ history.flatMap Feeding.fed) →
        Collector.empty.feed (history ++ later) = Collector.empty.feed history := by
  refine ⟨?_, ?_, ?_, ?_⟩
  · apply numbers_of_colors_eq
    change (Collector.empty.feed history).colors = _
    rw [Collector.feed_eq_collect, Collector.colors_collect_empty]
  · intro texts cause
    exact Collector.run_texts_eq_error_iff
  · intro later color index found
    rw [Collector.feed_append]
    exact index_of_continued (Collector.isPrefix_feed later) found
  · intro later refed
    rw [Collector.feed_append, Collector.feed_eq_collect later]
    apply Collector.collect_eq_self
    intro color colorMem
    have fed : color ∈ later.flatMap Feeding.fed := by simpa using colorMem
    exact Collector.mem_feed.mpr (Or.inr (refed color fed))

/-- After a call that fails at its second text, blue is the second colour and stays it. -/
theorem Palette.numbers_red_blue :
    (Collector.empty.feed [.texts ["#F00", "x", "#0f0"], .colors [none, some ⟨255, 0, 0⟩,
        some ⟨0, 0, 255⟩]]).freeze.Numbers [⟨255, 0, 0⟩, ⟨255, 0, 0⟩, ⟨0, 0, 255⟩] ∧
      (Collector.empty.feed ([.texts ["#F00", "x", "#0f0"], .colors [none, some ⟨255, 0, 0⟩,
        some ⟨0, 0, 255⟩]] ++ [.texts ["#0f0"]])).freeze.index ⟨0, 0, 255⟩ = .ok 1 := by
  have numbers := Palette.numbers_history [.texts ["#F00", "x", "#0f0"],
    .colors [none, some ⟨255, 0, 0⟩, some ⟨0, 0, 255⟩]]
  have indexed := numbers.1.index_of_first ⟨0, 0, 255⟩ [⟨255, 0, 0⟩, ⟨255, 0, 0⟩] [] rfl (by decide)
  constructor
  · exact numbers.1
  · exact numbers.2.2.1 [.texts ["#0f0"]] ⟨0, 0, 255⟩ 1 indexed

end TikzGlyph
