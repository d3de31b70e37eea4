import Mathlib.Data.List.TakeWhile
import TikzGlyph.Glyph.Parse
import TikzGlyph.Proofs.Color.Reading

/-!
# What a tag demands of its attributes

Every opening tag of a glyph demands some attributes in a fixed order: texts that are present,
numbers that are present and finite, and a fill that is absent, blank or a colour. The first demand
that is not met is the fault of the tag. This file states the demands as a table and shows that the
builder follows it: a tag whose demands are all met contributes the element or the group that its
attributes describe, and any other tag stops the builder with its first fault.
-/

namespace TikzGlyph

/-- One thing that a tag demands of its attributes. -/
inductive Demand
  /-- An attribute is present. -/
  | text (name : String)
  /-- An attribute is present, and its value is a finite number. -/
  | number (name : String)
  /-- The fill is absent, blank or a colour. -/
  | fill
deriving DecidableEq, Repr

namespace Tag

/-- The name under which a fault mentions a tag. -/
def name : Tag → String
  | .group => "g"
  | .path => "path"
  | .circle => "circle"
  | .ellipse => "ellipse"
  | .unrecognized name => name

/-- What an opening tag demands, in the order in which it is looked at. -/
def demands : Tag → List Demand
  | .group => [.fill]
  | .path => [.text "d", .fill]
  | .circle => [.number "cx", .number "cy", .number "r", .fill]
  | .ellipse => [.number "cx", .number "cy", .number "rx", .number "ry", .fill]
  | .unrecognized _ => []

end Tag

namespace Attributes

/-- The finite number in an attribute. -/
def number? (attributes : Attributes) (name : String) : Option Binary64 :=
  (attributes.get? name).bind finiteNumber?

/-- The colour of the fill. -/
def color? (attributes : Attributes) : Option Color :=
  (attributes.get? "fill").bind fun value => (Color.parseHex value).toOption

end Attributes

namespace Demand

/-- The attributes meet a demand. -/
def MetBy (attributes : Attributes) : Demand → Prop
  | .text name => ∃ value, attributes.get? name = some value
  | .number name => ∃ value number, attributes.get? name = some value ∧
      Binary64.ofChars? (trimBlank value.toList) = some number ∧ number.IsFinite
  | .fill => ∀ value, attributes.get? "fill" = some value →
      (∀ character ∈ value.toList, isBlank character = true) ∨
        ∃ color, Color.parseHex value = .ok color

/-- The fault of attributes that do not meet a demand of the tag at a place. -/
def fault? (tag : Tag) (attributes : Attributes) (location : Location) :
    Demand → Option GlyphError
  | .text name =>
      match attributes.get? name with
      | some _ => none
      | none => some (.missingAttribute tag.name name location)
  | .number name =>
      match attributes.get? name with
      | some value =>
          match Attributes.finiteNumber? value with
          | some _ => none
          | none => some (.invalidNumber name value location)
      | none => some (.missingAttribute tag.name name location)
  | .fill =>
      match attributes.get? "fill" with
      | some value =>
          if value.toList.all isBlank then none
          else
            match Color.parseHex value with
            | .ok _ => none
            | .error cause => some (.invalidFill cause location)
      | none => none

end Demand

namespace GlyphEvent

/-- The first demand of an opening tag that is not met, as a fault. -/
def fault? : GlyphEvent → Option GlyphError
  | .opening tag attributes location =>
      tag.demands.findSome? (Demand.fault? tag attributes location)
  | .closing _ _ => none

/-- All demands of an opening tag are met; a closing tag demands nothing. -/
def IsValid : GlyphEvent → Prop
  | .opening tag attributes _ => ∀ demand ∈ tag.demands, demand.MetBy attributes
  | .closing _ _ => True

/-- The element that the attributes of a drawing tag describe. -/
def element? : GlyphEvent → Option Element
  | .opening .path attributes _ => do
      let data ← attributes.get? "d"
      return .path data attributes.color?
  | .opening .circle attributes _ => do
      let centerX ← attributes.number? "cx"
      let centerY ← attributes.number? "cy"
      let radius ← attributes.number? "r"
      return .circle centerX centerY radius attributes.color?
  | .opening .ellipse attributes _ => do
      let centerX ← attributes.number? "cx"
      let centerY ← attributes.number? "cy"
      let radiusX ← attributes.number? "rx"
      let radiusY ← attributes.number? "ry"
      return .ellipse centerX centerY radiusX radiusY attributes.color?
  | _ => none

/-- Whether an event opens a path, a circle or an ellipse. -/
def isDrawing : GlyphEvent → Bool
  | .opening .path _ _ => true
  | .opening .circle _ _ => true
  | .opening .ellipse _ _ => true
  | _ => false

def opensGroup : GlyphEvent → Bool
  | .opening .group _ _ => true
  | _ => false

def closesGroup : GlyphEvent → Bool
  | .closing .group _ => true
  | _ => false

/-- Whether an event opens or closes a group. -/
def boundsGroup (event : GlyphEvent) : Bool := event.opensGroup || event.closesGroup

/-- The fill of the group that starts at an event: an opening group has one, if any. -/
def groupFill : GlyphEvent → Option Color
  | .opening .group attributes _ => attributes.color?
  | _ => none

/-- Whether the tag of an event is one that glyphs know. -/
def isRecognized : GlyphEvent → Bool
  | .opening (.unrecognized _) _ _ => false
  | .closing (.unrecognized _) _ => false
  | _ => true

end GlyphEvent

/-! ## Demands and the readers of attributes -/

namespace Demand

variable {attributes : Attributes} {tag : Tag} {location : Location}

theorem metBy_iff {demand : Demand} :
    demand.MetBy attributes ↔ demand.fault? tag attributes location = none := by
  cases demand with
  | text name => cases present : attributes.get? name <;> simp [MetBy, fault?, present]
  | number name =>
      cases present : attributes.get? name with
      | none => simp [MetBy, fault?, present]
      | some value =>
          cases read : Binary64.ofChars? (trimBlank value.toList) with
          | none => simp [MetBy, fault?, present, Attributes.finiteNumber?, read]
          | some number =>
              by_cases finite : number.IsFinite <;>
                simp [MetBy, fault?, present, Attributes.finiteNumber?, read, Binary64.finite?,
                  finite]
  | fill =>
      cases present : attributes.get? "fill" with
      | none => simp [MetBy, fault?, present]
      | some value =>
          by_cases blank : value.toList.all isBlank = true
          · simp only [MetBy, fault?, present, blank, if_true, iff_true]
            rintro _ ⟨⟩
            exact Or.inl (List.all_eq_true.mp blank)
          · have nonblank : ¬ ∀ character ∈ value.toList, isBlank character = true :=
              fun all => blank (List.all_eq_true.mpr all)
            cases parsed : Color.parseHex value with
            | ok color => simp [MetBy, fault?, present, parsed]
            | error cause => simp [MetBy, fault?, present, parsed, blank, nonblank]

end Demand

namespace Attributes

variable {attributes : Attributes} {location : Location}

theorem required_eq_ok_iff {tag name value : String} :
    attributes.required tag name location = .ok value ↔ attributes.get? name = some value := by
  cases present : attributes.get? name <;> simp [required, present]

theorem failure?_required (tag : Tag) (name : String) :
    failure? (attributes.required tag.name name location) =
      Demand.fault? tag attributes location (.text name) := by
  cases present : attributes.get? name <;> simp [required, Demand.fault?, present, failure?]

theorem number_eq_ok_iff {tag name : String} {number : Binary64} :
    attributes.number tag name location = .ok number ↔
      attributes.number? name = some number := by
  cases present : attributes.get? name with
  | none => simp [Attributes.number, number?, required, present, bind, Except.bind]
  | some value =>
      cases read : finiteNumber? value <;>
        simp [Attributes.number, number?, required, present, read, bind, Except.bind]

theorem failure?_number (tag : Tag) (name : String) :
    failure? (attributes.number tag.name name location) =
      Demand.fault? tag attributes location (.number name) := by
  cases present : attributes.get? name with
  | none => simp [number, required, Demand.fault?, present, bind, Except.bind, failure?]
  | some value =>
      cases read : finiteNumber? value <;>
        simp [number, required, Demand.fault?, present, read, bind, Except.bind, failure?]

/-- The fill that is read is the colour that the attributes denote. -/
theorem color?_of_fill {fill : Option Color} (read : attributes.fill location = .ok fill) :
    attributes.color? = fill := by
  rw [Attributes.fill, mapError_eq_ok_iff] at read
  cases present : attributes.get? "fill" with
  | none =>
      rw [present] at read
      cases read
      simp [color?, present]
  | some value =>
      rw [present, Color.parseFill_some] at read
      split_ifs at read with blank
      · cases read
        simp [color?, present, Color.parseHex_of_blank blank]
      · rcases map_eq_ok_iff.mp read with ⟨color, parsed, rfl⟩
        simp [color?, present, parsed, Except.toOption]

theorem failure?_fill (tag : Tag) :
    failure? (attributes.fill location) = Demand.fault? tag attributes location .fill := by
  cases present : attributes.get? "fill" with
  | none => simp [fill, Demand.fault?, present, Color.parseFill, failure?]
  | some value =>
      by_cases blank : value.toList.all isBlank = true
      · simp only [fill, Demand.fault?, present, Color.parseFill_some, blank, if_true, mapError_ok,
          failure?]
      · cases parsed : Color.parseHex value <;>
          simp only [fill, Demand.fault?, present, Color.parseFill_some, blank, if_false, parsed,
            Except.map, mapError_ok, mapError_error, failure?, Bool.false_eq_true]

end Attributes

/-! ## What an event contributes -/

namespace GlyphEvent

variable {event : GlyphEvent} {contribution : Contribution}

theorem failure?_opened (tag : Tag) (attributes : Attributes) (location : Location) :
    failure? (opened tag attributes location) =
      tag.demands.findSome? (Demand.fault? tag attributes location) := by
  cases tag with
  | group =>
      simp only [Tag.demands, findSome?_cons_or]
      exact failure?_bind (Attributes.failure?_fill .group) fun _ _ => rfl
  | path =>
      simp only [Tag.demands, findSome?_cons_or]
      apply failure?_bind (Attributes.failure?_required .path "d")
      intro data _
      exact failure?_bind (Attributes.failure?_fill .path) fun _ _ => rfl
  | circle =>
      simp only [Tag.demands, findSome?_cons_or]
      apply failure?_bind (Attributes.failure?_number .circle "cx")
      intro centerX _
      apply failure?_bind (Attributes.failure?_number .circle "cy")
      intro centerY _
      apply failure?_bind (Attributes.failure?_number .circle "r")
      intro radius _
      exact failure?_bind (Attributes.failure?_fill .circle) fun _ _ => rfl
  | ellipse =>
      simp only [Tag.demands, findSome?_cons_or]
      apply failure?_bind (Attributes.failure?_number .ellipse "cx")
      intro centerX _
      apply failure?_bind (Attributes.failure?_number .ellipse "cy")
      intro centerY _
      apply failure?_bind (Attributes.failure?_number .ellipse "rx")
      intro radiusX _
      apply failure?_bind (Attributes.failure?_number .ellipse "ry")
      intro radiusY _
      exact failure?_bind (Attributes.failure?_fill .ellipse) fun _ _ => rfl
  | unrecognized name => rfl

/-- An event fails with the first demand that is not met. -/
theorem failure?_contribution : failure? event.contribution = event.fault? := by
  cases event with
  | closing tag location => rfl
  | opening tag attributes location => exact failure?_opened tag attributes location

theorem isValid_iff : event.IsValid ↔ event.fault? = none := by
  cases event with
  | closing tag location => exact iff_of_true trivial rfl
  | opening tag attributes location =>
      rw [fault?, List.findSome?_eq_none_iff]
      exact forall₂_congr fun demand _ => Demand.metBy_iff

section Opened

variable {attributes : Attributes} {location : Location}

theorem opened_path (accepted : opened .path attributes location = .ok contribution) :
    ∃ element, (opening .path attributes location).element? = some element ∧
      contribution = .element element := by
  rcases bind_eq_ok_iff.mp accepted with ⟨data, found, accepted⟩
  rcases bind_eq_ok_iff.mp accepted with ⟨fill, filled, ⟨⟩⟩
  refine ⟨_, ?_, rfl⟩
  simp [element?, Attributes.required_eq_ok_iff.mp found, Attributes.color?_of_fill filled]

theorem opened_circle (accepted : opened .circle attributes location = .ok contribution) :
    ∃ element, (opening .circle attributes location).element? = some element ∧
      contribution = .element element := by
  rcases bind_eq_ok_iff.mp accepted with ⟨centerX, centerXRead, accepted⟩
  rcases bind_eq_ok_iff.mp accepted with ⟨centerY, centerYRead, accepted⟩
  rcases bind_eq_ok_iff.mp accepted with ⟨radius, radiusRead, accepted⟩
  rcases bind_eq_ok_iff.mp accepted with ⟨fill, filled, ⟨⟩⟩
  refine ⟨_, ?_, rfl⟩
  simp [element?, Attributes.number_eq_ok_iff.mp centerXRead,
    Attributes.number_eq_ok_iff.mp centerYRead, Attributes.number_eq_ok_iff.mp radiusRead,
    Attributes.color?_of_fill filled]

theorem opened_ellipse (accepted : opened .ellipse attributes location = .ok contribution) :
    ∃ element, (opening .ellipse attributes location).element? = some element ∧
      contribution = .element element := by
  rcases bind_eq_ok_iff.mp accepted with ⟨centerX, centerXRead, accepted⟩
  rcases bind_eq_ok_iff.mp accepted with ⟨centerY, centerYRead, accepted⟩
  rcases bind_eq_ok_iff.mp accepted with ⟨radiusX, radiusXRead, accepted⟩
  rcases bind_eq_ok_iff.mp accepted with ⟨radiusY, radiusYRead, accepted⟩
  rcases bind_eq_ok_iff.mp accepted with ⟨fill, filled, ⟨⟩⟩
  refine ⟨_, ?_, rfl⟩
  simp [element?, Attributes.number_eq_ok_iff.mp centerXRead,
    Attributes.number_eq_ok_iff.mp centerYRead, Attributes.number_eq_ok_iff.mp radiusXRead,
    Attributes.number_eq_ok_iff.mp radiusYRead, Attributes.color?_of_fill filled]

end Opened

/-- An accepted event starts a group, draws the element that it describes, or adds nothing. -/
theorem contribution_cases (accepted : event.contribution = .ok contribution) :
    (event.boundsGroup = true ∧ event.isDrawing = false ∧
        contribution = .newGroup event.groupFill) ∨
      (event.boundsGroup = false ∧ event.isDrawing = true ∧
        ∃ element, event.element? = some element ∧ contribution = .element element) ∨
      (event.boundsGroup = false ∧ event.isDrawing = false ∧ contribution = .nothing) := by
  cases event with
  | closing tag location =>
      cases accepted
      cases tag with
      | group => exact Or.inl ⟨rfl, rfl, rfl⟩
      | _ => exact Or.inr (Or.inr ⟨rfl, rfl, rfl⟩)
  | opening tag attributes location =>
      change opened tag attributes location = .ok contribution at accepted
      cases tag with
      | group =>
          rcases bind_eq_ok_iff.mp accepted with ⟨fill, filled, ⟨⟩⟩
          exact Or.inl ⟨rfl, rfl, by rw [groupFill, Attributes.color?_of_fill filled]⟩
      | path => exact Or.inr (Or.inl ⟨rfl, rfl, opened_path accepted⟩)
      | circle => exact Or.inr (Or.inl ⟨rfl, rfl, opened_circle accepted⟩)
      | ellipse => exact Or.inr (Or.inl ⟨rfl, rfl, opened_ellipse accepted⟩)
      | unrecognized name =>
          cases accepted
          exact Or.inr (Or.inr ⟨rfl, rfl, rfl⟩)

theorem countP_boundsGroup {events : List GlyphEvent} :
    events.countP boundsGroup = events.countP opensGroup + events.countP closesGroup := by
  induction events with
  | nil => rfl
  | cons event rest ih =>
      have apart : ¬ (event.opensGroup = true ∧ event.closesGroup = true) := by
        cases event <;> simp [opensGroup, closesGroup]
      cases opens : event.opensGroup <;> cases closes : event.closesGroup <;>
        simp_all [boundsGroup] <;> omega

theorem element?_ne_group {fill : Option Color} {children : List Element} :
    event.element? ≠ some (.group fill children) := by
  cases event with
  | closing tag location => simp [element?]
  | opening tag attributes location => cases tag <;> simp [element?, Option.bind_eq_some_iff]

theorem contribution_of_not_isRecognized (unknown : event.isRecognized = false) :
    event.contribution = .ok .nothing := by
  cases event with
  | opening tag attributes location => cases tag <;> first | rfl | cases unknown
  | closing tag location => cases tag <;> first | rfl | cases unknown

end GlyphEvent

end TikzGlyph
