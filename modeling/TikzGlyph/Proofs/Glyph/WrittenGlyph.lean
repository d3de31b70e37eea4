import TikzGlyph.Proofs.Glyph.Joining
import TikzGlyph.Proofs.Glyph.PathData
import TikzGlyph.Proofs.Markup.WrittenDocument

/-!
# Glyphs of written documents

A forest of elements can be written as text in many ways. However it is written, the text is read as
the glyph that is built from the elements themselves: from their names and attributes as they were
before escaping, in document order. So path data comes through unchanged, and nobody can tell from a
glyph whether an empty element was self-closing.
-/

namespace TikzGlyph

/-- An element of a document with its attributes and the elements in it. -/
inductive Node
  | element (name : String) (attributes : List (String × String)) (content : List Node)

namespace Node

mutual

/-- The events of an element, all told to be at one place. -/
def events (location : Location) : Node → List GlyphEvent
  | .element name attributes content =>
      .opening (.ofName name) ⟨attributes⟩ location ::
        (eventsOfAll location content ++ [.closing (.ofName name) location])

def eventsOfAll (location : Location) : List Node → List GlyphEvent
  | [] => []
  | first :: rest => first.events location ++ eventsOfAll location rest

end

mutual

/-- The data of the paths among an element and the elements in it, in document order. -/
def pathData : Node → List String
  | .element name attributes content =>
      (if name = "path" then (attributes.lookup "d").toList else []) ++ pathDataOfAll content

def pathDataOfAll : List Node → List String
  | [] => []
  | first :: rest => first.pathData ++ pathDataOfAll rest

end

end Node

/-- A source is read as the elements of a document: as if a glyph were built from their events. -/
structure ReadsAs (source : String) (nodes : List Node) : Prop where
  readable_iff : (∃ groups, parseGlyph source = .ok groups) ↔
    ∀ event ∈ Node.eventsOfAll .start nodes, event.IsValid
  parseGlyph_iff : ∀ location groups, parseGlyph source = .ok groups ↔
    ∃ builder, (Node.eventsOfAll location nodes).foldlM Builder.handle .start = .ok builder ∧
      builder.groups = groups
  pathData_eq : ∀ groups, parseGlyph source = .ok groups →
    glyphPathData groups = Node.pathDataOfAll nodes

namespace Markup

namespace WrittenTag

def elementName (tag : WrittenTag) : String := String.ofList tag.name.letters

def elementAttributes (tag : WrittenTag) : List (String × String) :=
  tag.attributes.map fun written =>
    (String.ofList written.name.letters, String.ofList written.value)

end WrittenTag

namespace Written

mutual

/-- The elements that a part of a document writes. -/
def nodes : Written → List Node
  | .blank _ => []
  | .selfClosing tag => [.element tag.elementName tag.elementAttributes []]
  | .paired tag content _ =>
      [.element tag.elementName tag.elementAttributes (nodesOfAll content)]

def nodesOfAll : List Written → List Node
  | [] => []
  | first :: rest => first.nodes ++ nodesOfAll rest

end

end Written

@[simp]
theorem localName_name (name : Name) : localName name.letters = name.letters := by
  have noColon : ∀ letter ∈ name.letters, decide (letter ≠ ':') = true := by
    intro letter letterMem
    have regular := Name.not_of_mem letterMem
    rw [decide_eq_true_iff]
    rintro rfl
    simp at regular
  rw [localName, List.dropWhile_eq_nil_iff.mpr noColon]

end Markup

/-! ## Paths -/

namespace Node

variable {location : Location}

theorem pathData?_opening {name : String} {attributes : List (String × String)} :
    (GlyphEvent.opening (.ofName name) ⟨attributes⟩ location).pathData?.toList =
      if name = "path" then (attributes.lookup "d").toList else [] := by
  by_cases path : name = "path"
  · subst path
    rfl
  · rw [if_neg path]
    unfold Tag.ofName
    split
    · rfl
    · split
      · rfl
      · split <;> rfl

mutual

theorem filterMap_events (node : Node) :
    (node.events location).filterMap GlyphEvent.pathData? = node.pathData := by
  cases node with
  | element name attributes content =>
      have closingData :
          [GlyphEvent.closing (.ofName name) location].filterMap GlyphEvent.pathData? = [] := rfl
      rw [events, ← List.singleton_append, List.filterMap_append, List.filterMap_append,
        filterMap_eventsOfAll content, closingData, List.append_nil, pathData,
        ← pathData?_opening]
      cases data : (GlyphEvent.opening (.ofName name) ⟨attributes⟩ location).pathData? <;>
        simp [data]

theorem filterMap_eventsOfAll (nodes : List Node) :
    (eventsOfAll location nodes).filterMap GlyphEvent.pathData? = pathDataOfAll nodes := by
  cases nodes with
  | nil => rfl
  | cons first rest =>
      rw [eventsOfAll, List.filterMap_append, filterMap_events first, filterMap_eventsOfAll rest,
        pathDataOfAll]

end

theorem eventsOfAll_append (left right : List Node) :
    eventsOfAll location (left ++ right) =
      eventsOfAll location left ++ eventsOfAll location right := by
  induction left with
  | nil => rfl
  | cons first rest ih => rw [List.cons_append, eventsOfAll, ih, eventsOfAll, List.append_assoc]

end Node

/-! ## Documents -/

namespace Markup

variable (source : List Char) (location : Location)

theorem WrittenTag.placedAt_openingEvent (tag : WrittenTag) (position : Nat) :
    (GlyphEvent.ofMarkup source (tag.openingEvent position)).placedAt location =
      .opening (.ofName tag.elementName) ⟨tag.elementAttributes⟩ location := by
  simp [openingEvent, GlyphEvent.ofMarkup, GlyphEvent.placedAt, Tag.ofMarkup, Attributes.ofMarkup,
    readAs, WrittenAttribute.toAttribute, elementName, elementAttributes, Function.comp_def]

theorem WrittenTag.placedAt_closing (tag : WrittenTag) (position : Nat) :
    (GlyphEvent.ofMarkup source (.closing tag.name.letters position)).placedAt location =
      .closing (.ofName tag.elementName) location := by
  simp [GlyphEvent.ofMarkup, GlyphEvent.placedAt, Tag.ofMarkup, elementName]

namespace Written

mutual

/-- The events of a written part are those of its elements, wherever they are said to be. -/
theorem map_ofMarkup_events (written : Written) (position : Nat) :
    ((written.events position).map (GlyphEvent.ofMarkup source)).map
        (GlyphEvent.placedAt location) =
      Node.eventsOfAll location written.nodes := by
  cases written with
  | blank space => rfl
  | selfClosing tag =>
      simp only [events, nodes, Node.eventsOfAll, Node.events, List.map_cons, List.map_nil,
        tag.placedAt_openingEvent, tag.placedAt_closing]
      rfl
  | paired tag content afterName =>
      simp only [events, nodes, Node.eventsOfAll, Node.events, List.map_cons, List.map_append,
        List.map_nil, tag.placedAt_openingEvent, tag.placedAt_closing,
        map_ofMarkup_eventsOfAll content, List.append_nil]

theorem map_ofMarkup_eventsOfAll (document : List Written) (position : Nat) :
    ((eventsOfAll position document).map (GlyphEvent.ofMarkup source)).map
        (GlyphEvent.placedAt location) =
      Node.eventsOfAll location (nodesOfAll document) := by
  cases document with
  | nil => rfl
  | cons first rest =>
      simp only [eventsOfAll, nodesOfAll, List.map_append, map_ofMarkup_events first,
        map_ofMarkup_eventsOfAll rest, Node.eventsOfAll_append]

end

end Written

end Markup

open Markup

/-- A written document is read as the glyph of its events, each at the `<` of its tag. -/
theorem parseGlyph_textOfAll (document : List Written) :
    parseGlyph (String.ofList (Written.textOfAll document)) =
      (((Written.eventsOfAll 0 document).map
        (GlyphEvent.ofMarkup (Written.textOfAll document))).foldlM Builder.handle .start).map
          Builder.groups := by
  rw [parseGlyph_eq_bind, glyphEvents, String.toList_ofList, Written.events_textOfAll]
  cases ((Written.eventsOfAll 0 document).map
    (GlyphEvent.ofMarkup (Written.textOfAll document))).foldlM Builder.handle .start <;> rfl

theorem readsAs_textOfAll (document : List Written) :
    ReadsAs (String.ofList (Written.textOfAll document)) (Written.nodesOfAll document) := by
  have parsedIff : ∀ location groups,
      parseGlyph (String.ofList (Written.textOfAll document)) = .ok groups ↔
        ∃ builder, (Node.eventsOfAll location (Written.nodesOfAll document)).foldlM
          Builder.handle .start = .ok builder ∧ builder.groups = groups := by
    intro location groups
    rw [parseGlyph_textOfAll, map_eq_ok_iff,
      ← Written.map_ofMarkup_eventsOfAll (Written.textOfAll document) location document 0]
    simp only [Builder.foldlM_placedAt_eq_ok_iff]
  refine ⟨?_, parsedIff, ?_⟩
  · have builtIff :
        (∃ groups, parseGlyph (String.ofList (Written.textOfAll document)) = .ok groups) ↔
          ∃ builder, (Node.eventsOfAll .start (Written.nodesOfAll document)).foldlM
            Builder.handle .start = .ok builder := by
      constructor
      · rintro ⟨groups, parsed⟩
        rcases (parsedIff .start groups).mp parsed with ⟨builder, handled, _⟩
        exact ⟨builder, handled⟩
      · rintro ⟨builder, handled⟩
        exact ⟨builder.groups, (parsedIff .start _).mpr ⟨builder, handled, rfl⟩⟩
    rw [builtIff, ← failure?_eq_none_iff, Builder.failure?_foldlM, List.findSome?_eq_none_iff]
    exact forall₂_congr fun event _ => GlyphEvent.isValid_iff.symm
  · intro groups parsed
    rcases (parsedIff .start groups).mp parsed with ⟨builder, handled, rfl⟩
    rw [Builder.glyphPathData_foldlM handled, Node.filterMap_eventsOfAll]
    rfl

/-- However a document is written, it is read as the glyph of its elements. The result, faults
included, is that of building from the events of the elements, each at the `<` of its tag; the
places aside, these events depend on the elements alone. Two ways of writing the same elements give
the same groups. -/
theorem parseGlyph_written (document : List Written) :
    ReadsAs (String.ofList (Written.textOfAll document)) (Written.nodesOfAll document) ∧
      parseGlyph (String.ofList (Written.textOfAll document)) =
        (((Written.eventsOfAll 0 document).map
          (GlyphEvent.ofMarkup (Written.textOfAll document))).foldlM Builder.handle .start).map
            Builder.groups ∧
      (∀ location, ((Written.eventsOfAll 0 document).map
          (GlyphEvent.ofMarkup (Written.textOfAll document))).map (GlyphEvent.placedAt location) =
        Node.eventsOfAll location (Written.nodesOfAll document)) ∧
      ∀ other, Written.nodesOfAll other = Written.nodesOfAll document →
        ∀ groups, parseGlyph (String.ofList (Written.textOfAll other)) = .ok groups ↔
          parseGlyph (String.ofList (Written.textOfAll document)) = .ok groups := by
  refine ⟨readsAs_textOfAll document, parseGlyph_textOfAll document, ?_, ?_⟩
  · intro location
    exact Written.map_ofMarkup_eventsOfAll _ location document 0
  · intro other sameElements groups
    rw [(readsAs_textOfAll other).parseGlyph_iff .start,
      (readsAs_textOfAll document).parseGlyph_iff .start, sameElements]

end TikzGlyph
