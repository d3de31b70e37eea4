import Mathlib.Data.List.Nodup
import TikzGlyph.Proofs.Glyph.Joining
import TikzGlyph.Proofs.Glyph.PathData
import TikzGlyph.Proofs.Markup.Parts

/-!
# Glyphs and the order of attributes

A glyph takes the first attribute with each local name that it looks for, and no notice of any
other. So the attributes of its tags may be written in another order, as long as the first ones keep
their values and the tags remain tags. Distinct local names and names without quotes are enough for
that.
-/

namespace TikzGlyph

/-- The name of the attribute that a demand looks at. -/
def Demand.attributeName : Demand → String
  | .text name => name
  | .number name => name
  | .fill => "fill"

namespace Markup

/-- The name of an attribute without its prefix. -/
def AttributeText.localName (written : AttributeText) : String :=
  String.ofList (Markup.localName written.key.characters)

namespace TagText

/-- The value of the first attribute with a local name. -/
def firstValue? (tag : TagText) (name : String) : Option (List Char) :=
  (tag.attributes.find? fun written => name == written.localName).map AttributeText.value

/-- A tag with the same name and with the same attributes in some order. -/
def Permutes (tag other : TagText) : Prop :=
  other.name = tag.name ∧ other.attributes.Perm tag.attributes

/-- The attributes that a glyph looks for in the first tag have the same values in both. -/
def ReadsLike (tag other : TagText) : Prop :=
  ∀ demand ∈ (Tag.ofMarkup tag.name).demands,
    other.firstValue? demand.attributeName = tag.firstValue? demand.attributeName

variable {tag other : TagText}

theorem get?_ofMarkup (tag : TagText) (name : String) :
    (Attributes.ofMarkup (tag.attributes.map AttributeText.toAttribute)).get? name =
      (tag.firstValue? name).map String.ofList := by
  have lookedUp : ∀ written : List AttributeText,
      (Attributes.ofMarkup (written.map AttributeText.toAttribute)).get? name =
        ((written.find? fun written => name == written.localName).map
          AttributeText.value).map String.ofList := by
    intro written
    induction written with
    | nil => rfl
    | cons first rest ih =>
        change List.lookup name ((first.localName, String.ofList first.value) :: _) = _
        rw [List.lookup_cons, List.find?_cons]
        cases same : name == first.localName with
        | true => rfl
        | false => exact ih
  exact lookedUp tag.attributes

/-- Distinct local names keep their values in every order. -/
theorem Permutes.readsLike (permutes : tag.Permutes other)
    (distinct : (tag.attributes.map AttributeText.localName).Nodup) : tag.ReadsLike other := by
  rcases permutes with ⟨_, reordered⟩
  intro demand _
  apply congrArg (Option.map AttributeText.value)
  have namedOnce : ∀ first ∈ tag.attributes, ∀ second ∈ tag.attributes,
      first.localName = second.localName → first = second :=
    fun first firstMem second secondMem => List.inj_on_of_nodup_map distinct firstMem secondMem
  cases found : tag.attributes.find? fun written => demand.attributeName == written.localName with
  | none =>
      rw [List.find?_eq_none] at found ⊢
      intro written writtenMem
      exact found written (reordered.mem_iff.mp writtenMem)
  | some first =>
      have firstMem := List.mem_of_find?_eq_some found
      have firstNamed := List.find?_some found
      cases otherFound : other.attributes.find? fun written =>
          demand.attributeName == written.localName with
      | none =>
          rw [List.find?_eq_none] at otherFound
          exact absurd firstNamed (otherFound first (reordered.mem_iff.mpr firstMem))
      | some second =>
          have secondMem := reordered.mem_iff.mp (List.mem_of_find?_eq_some otherFound)
          have secondNamed := List.find?_some otherFound
          rw [beq_iff_eq] at firstNamed secondNamed
          rw [namedOnce first firstMem second secondMem (firstNamed.symm.trans secondNamed)]

end TagText

/-- Two parts agree but for the order of attributes that a glyph does not tell apart. -/
inductive Part.Reorders : Part → Part → Prop
  | same (part : Part) : Reorders part part
  | element {tag other : TagText} {selfClosing : Bool} {isTag : IsTag (tag.content selfClosing)}
      {otherIsTag : IsTag (other.content selfClosing)} (permutes : tag.Permutes other)
      (readsLike : tag.ReadsLike other) :
      Reorders (.element tag selfClosing isTag) (.element other selfClosing otherIsTag)

end Markup

/-! ## Events with the same values -/

/-- The attributes that a tag looks for have the same values. -/
def Attributes.AlikeFor (name : List Char) (attributes others : List Markup.Attribute) : Prop :=
  ∀ demand ∈ (Tag.ofMarkup name).demands,
    (ofMarkup others).get? demand.attributeName = (ofMarkup attributes).get? demand.attributeName

namespace GlyphEvent

variable {contribution : Contribution}

theorem opened_of_alike {tag : Tag} {attributes others : Attributes} {location place : Location}
    (alike : ∀ demand ∈ tag.demands,
      others.get? demand.attributeName = attributes.get? demand.attributeName)
    (accepted : opened tag attributes location = .ok contribution) :
    opened tag others place = .ok contribution := by
  cases tag <;>
  · simp only [Tag.demands, List.forall_mem_cons, Demand.attributeName] at alike
    simpa only [opened, bind_eq_ok_iff, Attributes.required_eq_ok_iff, Attributes.number_eq_ok_iff,
      Attributes.fill_eq_ok_iff, Attributes.number?, alike] using accepted

/-- Events of the markup that agree but for attributes that are alike add the same to a glyph. -/
theorem contribution_of_like {source text : List Char} {event other : Markup.Event}
    (like : event.Like Attributes.AlikeFor other)
    (accepted : (ofMarkup source event).contribution = .ok contribution) :
    (ofMarkup text other).contribution = .ok contribution := by
  cases event with
  | opening name attributes position =>
      cases other with
      | opening otherName others otherPosition =>
          rcases like with ⟨rfl, alike⟩
          exact opened_of_alike alike accepted
      | closing otherName otherPosition => exact absurd like id
  | closing name position =>
      cases other with
      | opening otherName others otherPosition => exact absurd like id
      | closing otherName otherPosition =>
          cases like
          exact accepted

end GlyphEvent

namespace Builder

open GlyphEvent

theorem foldlM_of_like {source text : List Char} {events others : List Markup.Event}
    {builder final : Builder}
    (like : List.Forall₂ (Markup.Event.Like Attributes.AlikeFor) events others)
    (handled : (events.map (ofMarkup source)).foldlM handle builder = .ok final) :
    (others.map (ofMarkup text)).foldlM handle builder = .ok final := by
  induction like generalizing builder with
  | nil => exact handled
  | cons eventLike _ ih =>
      rw [List.map_cons, foldlM_cons_eq_ok_iff] at handled ⊢
      rcases handled with ⟨next, eventHandled, restHandled⟩
      rcases map_eq_ok_iff.mp eventHandled with ⟨contribution, accepted, rfl⟩
      refine ⟨builder.add contribution, ?_, ih restHandled⟩
      rw [handle, contribution_of_like eventLike accepted]
      rfl

end Builder

/-! ## Sources -/

open Markup

/-- A byte order mark, and positions with it, make no difference to a glyph. -/
theorem parseGlyph_ofList_eq_ok_iff {text : List Char} {groups : List Group} :
    parseGlyph (String.ofList text) = .ok groups ↔
      (eventsFrom [] 0 text).failure = none ∧
        ∃ builder, ((eventsFrom [] 0 text).events.map (GlyphEvent.ofMarkup text)).foldlM
            Builder.handle .start = .ok builder ∧
          builder.groups = groups := by
  rw [parseGlyph_eq_ok_iff, String.toList_ofList, events_eq_eventsFrom]
  rcases exists_eventsFrom_dropByteOrderMark [] 0 text with ⟨later, markedEq⟩
  rw [markedEq]
  have moved : ∀ {start other : Nat} {builder : Builder},
      (eventsFrom [] start (dropByteOrderMark text)).failure = none →
      ((eventsFrom [] start (dropByteOrderMark text)).events.map
        (GlyphEvent.ofMarkup text)).foldlM Builder.handle .start = .ok builder →
      (eventsFrom [] other (dropByteOrderMark text)).failure = none ∧
        ((eventsFrom [] other (dropByteOrderMark text)).events.map
          (GlyphEvent.ofMarkup text)).foldlM Builder.handle .start = .ok builder := by
    intro start other builder accepted handled
    rcases eventsFrom_append_below accepted [] other with ⟨otherAccepted, eventsEq⟩
    exact ⟨otherAccepted, Builder.foldlM_ofMarkup_of_placedAt text text eventsEq handled⟩
  constructor
  · rintro ⟨accepted, builder, handled, groupsEq⟩
    rcases moved accepted handled with ⟨otherAccepted, otherHandled⟩
    exact ⟨otherAccepted, builder, otherHandled, groupsEq⟩
  · rintro ⟨accepted, builder, handled, groupsEq⟩
    rcases moved accepted handled with ⟨otherAccepted, otherHandled⟩
    exact ⟨otherAccepted, builder, otherHandled, groupsEq⟩

theorem Markup.Part.Reorders.like {part other : Part} (reorders : part.Reorders other) :
    part.Like Attributes.AlikeFor other := by
  cases reorders with
  | same => exact .same part
  | element permutes readsLike =>
      apply Part.Like.element permutes.1
      intro demand demandMem
      rw [TagText.get?_ofMarkup, TagText.get?_ofMarkup, readsLike demand demandMem]

/-- Every source that is read consists of parts. Its glyph stays the same in whatever order the
attributes of its tags are written, as long as the first attributes that the glyph looks for keep
their values and the tags are still found as tags. The values are kept if the local names of a tag
are distinct, and a tag is still found as one if its names hold no quotes. -/
theorem parseGlyph_reordered :
    (∀ source groups, parseGlyph source = .ok groups →
      ∃ parts, String.ofList (Part.textOfAll parts) = source) ∧
      (∀ parts others groups, List.Forall₂ Part.Reorders parts others →
        parseGlyph (String.ofList (Part.textOfAll parts)) = .ok groups →
        parseGlyph (String.ofList (Part.textOfAll others)) = .ok groups) ∧
      (∀ tag other : TagText, tag.Permutes other →
        (tag.attributes.map AttributeText.localName).Nodup → tag.ReadsLike other) ∧
      ∀ (tag other : TagText) selfClosing, tag.Permutes other → tag.NamesUnquoted →
        IsTag (tag.content selfClosing) → IsTag (other.content selfClosing) := by
  refine ⟨?_, ?_, ?_, ?_⟩
  · intro source groups parsed
    rw [← String.ofList_toList (s := source)] at parsed
    rcases exists_parts (parseGlyph_ofList_eq_ok_iff.mp parsed).1 with ⟨parts, partsEq⟩
    exact ⟨parts, by rw [partsEq, String.ofList_toList]⟩
  · intro parts others groups reorders parsed
    rcases parseGlyph_ofList_eq_ok_iff.mp parsed with ⟨accepted, builder, handled, groupsEq⟩
    have agree : List.Forall₂ (Part.Like Attributes.AlikeFor) parts others :=
      reorders.imp fun _ _ => Part.Reorders.like
    rcases forall₂_eventsFrom (fun _ _ _ _ => rfl) agree accepted 0 with ⟨otherAccepted, like⟩
    exact parseGlyph_ofList_eq_ok_iff.mpr
      ⟨otherAccepted, builder, Builder.foldlM_of_like like handled, groupsEq⟩
  · intro tag other permutes distinct
    exact permutes.readsLike distinct
  · intro tag other selfClosing permutes unquoted isTag
    exact TagText.isTag_of_perm unquoted permutes.1 permutes.2 isTag

/-! ## A path and its attributes -/

/-- A plain attribute after a blank. -/
def plainAttribute (key : AttributeKey) (raw : List Char) (absent : '\x22' ∉ raw)
    (unescapeRaw : unescape raw = .ok raw) : SpacedAttribute :=
  ⟨.blank, key, .empty, .empty, '\x22', isQuote_double, raw, absent, raw, unescapeRaw⟩

/-- The attribute ` x:d="M0 0"`. -/
def originData : SpacedAttribute :=
  plainAttribute ⟨'x', [':', 'd'], rfl, by simp [isSpace]⟩ ['M', '0', ' ', '0'] (by simp) rfl

/-- The attribute ` fill="#fc0"`. -/
def goldFill : SpacedAttribute :=
  plainAttribute ⟨'f', ['i', 'l', 'l'], rfl, by simp [isSpace]⟩ ['#', 'f', 'c', '0'] (by simp) rfl

/-- A path with two attributes. -/
def pathTag (first second : SpacedAttribute) (separated : first.before.characters ≠ [])
    (distinct : ([first, second].map SpacedAttribute.key).Nodup) : TagText :=
  ⟨['p', 'a', 't', 'h'], by simp [isSpace], by simp, first, separated, [second], distinct, .empty⟩

def dataFirst : TagText := pathTag originData goldFill (by decide) (by decide)

def fillFirst : TagText := pathTag goldFill originData (by decide) (by decide)

/-- The data of a path may come after its fill, with a prefix as well. -/
theorem parseGlyph_reordered_path :
    ∃ groups, parseGlyph "<path x:d=\"M0 0\" fill=\"#fc0\"/>" = .ok groups ∧
      parseGlyph "<path fill=\"#fc0\" x:d=\"M0 0\"/>" = .ok groups := by
  have permutes : dataFirst.Permutes fillFirst := ⟨rfl, .swap _ _ _⟩
  have readsLike : dataFirst.ReadsLike fillFirst :=
    parseGlyph_reordered.2.2.1 dataFirst fillFirst permutes (by decide)
  have unquoted : dataFirst.NamesUnquoted := by
    simp [TagText.NamesUnquoted, TagText.attributes, TagText.spacedAttributes, dataFirst, pathTag,
      originData, goldFill, plainAttribute, AttributeKey.characters, isQuote]
  have isTag : IsTag (dataFirst.content true) := by decide +kernel
  have otherIsTag : IsTag (fillFirst.content true) :=
    parseGlyph_reordered.2.2.2 dataFirst fillFirst true permutes unquoted isTag
  have textEq : String.ofList (Part.textOfAll [.element dataFirst true isTag]) =
      "<path x:d=\"M0 0\" fill=\"#fc0\"/>" := rfl
  have otherTextEq : String.ofList (Part.textOfAll [.element fillFirst true otherIsTag]) =
      "<path fill=\"#fc0\" x:d=\"M0 0\"/>" := rfl
  have readable : failure? (parseGlyph "<path x:d=\"M0 0\" fill=\"#fc0\"/>") = none := by
    decide +kernel
  rcases failure?_eq_none_iff.mp readable with ⟨groups, parsed⟩
  rw [← textEq] at parsed
  have reordered := parseGlyph_reordered.2.1 _ _ groups
    (.cons (.element permutes readsLike) .nil : List.Forall₂ Part.Reorders
      [.element dataFirst true isTag] [.element fillFirst true otherIsTag]) parsed
  rw [textEq] at parsed
  rw [otherTextEq] at reordered
  exact ⟨groups, parsed, reordered⟩

/-- Of two attributes with one local name the first one counts, and names with quotes can take a `>`
out of the quotes that are around it in another order. -/
theorem parseGlyph_not_reordered :
    (parseGlyph "<path xmlns:a='u' xmlns:b='v' a:d='M0 0' b:d='M1 1'/>").map glyphPathData =
        .ok ["M0 0"] ∧
      (parseGlyph "<path xmlns:a='u' xmlns:b='v' b:d='M1 1' a:d='M0 0'/>").map glyphPathData =
        .ok ["M1 1"] ∧
      (parseGlyph "<g c=\">\" a\"b=\"1\" d\"e=\"2\"/>").map List.length = .ok 3 ∧
      failure? (parseGlyph "<g a\"b=\"1\" c=\">\" d\"e=\"2\"/>") =
        some (.markup (.attributeList (.quoteNotClosed 13 '\x22'))) := by
  decide +kernel

end TikzGlyph
