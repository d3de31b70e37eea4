import TikzGlyph.Document.SpecJson
import TikzGlyph.Proofs.Json.Accepting

/-!
# The placements in the text of a specification

Where the placements of a specification stand in its text, and what their transforms say there. A
field of a transform is written at most once, as one number in range, or it is missing and has the
value of the identity. Every specification that is accepted has been read from a value of that form.
-/

namespace TikzGlyph

open Json

def Transform.named (transform : Transform) : List (String × Binary64) :=
  [("x", transform.x), ("y", transform.y), ("scale", transform.scale),
    ("rotate", transform.rotate)]

theorem Transform.forall_named (holds : Binary64 → Prop) {transform : Transform} :
    (∀ field ∈ transform.named, holds field.2) ↔
      holds transform.x ∧ holds transform.y ∧ holds transform.scale ∧ holds transform.rotate := by
  simp [named]

/-- A value says what a transform is: every field is missing, or it is one number. -/
def Transform.IsWrittenIn (transform : Transform) (source : Value) : Prop :=
  ∀ name number, (name, number) ∈ transform.named →
    (source.under name = [] ∧ (name, number) ∈ Transform.identity.named) ∨
      source.under name = [.number (some number)]

namespace DocumentSpec

/-- The values of the placements of a specification: an object has an array of them under their
name, and an array has it at the fourth place. -/
def placementValues : Value → List Value
  | .array (_ :: _ :: _ :: placements :: _) => placements.items
  | .object members => (Value.valuesUnder "placements" members).flatMap Value.items
  | _ => []

/-- The values of the fields of transforms in a specification. -/
def transformValues (source : Value) : List Value :=
  (placementValues source).flatMap fun placement =>
    Transform.identity.named.flatMap fun field => placement.under field.1

end DocumentSpec

/-! ## Fields -/

section Fields

variable {State Value : Type} {get : State → Option Value} {set : State → Value → State}
  {reader : Reader Value} {denotes : Json.Value → Value → Prop} {state : State}
  {found : Reader State}

/-- A field is read if it has not been read before, and it changes the state. -/
theorem accepts_of_readField (accepts : reader.Accepts denotes)
    (chosen : readField get set reader state = .ok found) :
    get state = none ∧ found.Accepts fun source next =>
      ∃ read, denotes source read ∧ set state read = next := by
  rw [readField] at chosen
  split at chosen
  · cases chosen
  · rename_i unread
    cases chosen
    exact ⟨unread, accepts.map (set state)⟩

theorem accepts_of_skipField (chosen : skipField state = .ok found) :
    found.Accepts fun _ next => next = state := by
  cases chosen
  apply (Reader.accepts_ignored.map _).mono
  rintro source next ⟨_, _, rfl⟩
  rfl

end Fields

/-! ## Placements -/

namespace Placement

namespace Members

/-- What a member adds to those that have been read, the identifier aside. -/
def Reads (members : Members) (key : String) (source : Value) (next : Members) : Prop :=
  next.others = if key = "glyph" then members.others
    else members.others ++ [(key, source.number?)]

theorem accepts_of_choose (members : Members) (key : String) (found : Reader Members)
    (chosen : members.choose key = .ok found) : found.Accepts (members.Reads key) := by
  rw [choose] at chosen
  split at chosen
  · rename_i isGlyph
    rcases accepts_of_readField Reader.accepts_string chosen with ⟨_, accepts⟩
    apply accepts.mono
    rintro source next ⟨text, _, rfl⟩
    rw [Reads, if_pos isGlyph]
    rfl
  · rename_i notGlyph
    cases chosen
    apply ((Reader.accepts_anything depth).map _).mono
    rintro source next ⟨kept, rfl, rfl⟩
    rw [Reads, if_neg notGlyph]
    rfl

/-- The members that have been read under a name are those that are written under it. -/
theorem filter_of_readsMembers {start final : Members} {members : List (Option String × Value)}
    (read : Reader.ReadsMembers Reads start members final) {name : String}
    (notGlyph : name ≠ "glyph") :
    (final.others.filter fun member => member.1 = name) =
      (start.others.filter fun member => member.1 = name) ++
        (Value.valuesUnder name members).map fun value => (name, value.number?) := by
  induction read with
  | nil => simp [Value.valuesUnder]
  | @cons state next final key value rest step later ih =>
      rw [ih, step]
      by_cases same : key = name
      · subst same
        simp [notGlyph, Value.valuesUnder_cons_of_eq]
      · have apart : (some key, value).1 ≠ some name := fun equal => same (Option.some.inj equal)
        rw [Value.valuesUnder_cons_of_ne apart]
        split
        · rfl
        · simp [same]

theorem field_eq_ok {members : Members} {name : String} {missing number : Binary64}
    (found : members.field name missing = .ok number) :
    ((members.others.filter fun member => member.1 = name) = [] ∧ number = missing) ∨
      ∃ key, (members.others.filter fun member => member.1 = name) = [(key, some number)] := by
  unfold field at found
  split at found
  · rename_i empty
    cases found
    exact Or.inl ⟨empty, rfl⟩
  · rename_i key value single
    cases found
    exact Or.inr ⟨key, single⟩
  · cases found

/-- A field of a transform is missing among the members, or one of them is the number. -/
theorem under_of_field {final : Members} {members : List (Option String × Value)}
    (read : Reader.ReadsMembers Reads .none members final) {name : String} {missing : Binary64}
    (named : (name, missing) ∈ Transform.identity.named) {number : Binary64}
    (found : final.field name missing = .ok number) :
    ((Value.object members).under name = [] ∧ (name, number) ∈ Transform.identity.named) ∨
      (Value.object members).under name = [.number (some number)] := by
  have notGlyph : name ≠ "glyph" := by
    rintro rfl
    simp [Transform.named] at named
  have filtered := filter_of_readsMembers read notGlyph
  rw [none, List.filter_nil, List.nil_append] at filtered
  rcases field_eq_ok found with ⟨empty, rfl⟩ | ⟨key, single⟩
  · rw [empty] at filtered
    exact Or.inl ⟨List.map_eq_nil_iff.mp filtered.symm, named⟩
  · rw [single] at filtered
    rcases List.map_eq_singleton_iff.mp filtered.symm with ⟨value, valuesEq, valueEq⟩
    rw [Prod.mk.injEq] at valueEq
    right
    rw [Value.under, valuesEq]
    cases value with
    | number inner => exact congrArg (fun read => [Value.number read]) valueEq.2
    | _ => cases valueEq.2

end Members

theorem accepts_reader :
    reader.Accepts fun source placement => placement.transform.IsWrittenIn source := by
  intro tokens taken accepted
  rcases bind_eq_ok_iff.mp accepted with ⟨object, objectAccepted, completed⟩
  rcases map_eq_ok_iff.mp completed with ⟨placement, membersComplete, rfl⟩
  rcases Reader.accepts_object Members.accepts_of_choose .none tokens object objectAccepted with
    ⟨_, tokensEq, members, rfl, read⟩
  refine ⟨.object members, tokensEq, ?_⟩
  unfold Members.complete at membersComplete
  split at membersComplete
  · cases membersComplete
  · rcases bind_eq_ok_iff.mp membersComplete with ⟨x, xFound, restFound⟩
    rcases bind_eq_ok_iff.mp restFound with ⟨y, yFound, restFound⟩
    rcases bind_eq_ok_iff.mp restFound with ⟨scale, scaleFound, restFound⟩
    rcases bind_eq_ok_iff.mp restFound with ⟨rotate, rotateFound, placementEq⟩
    cases placementEq
    intro name number named
    simp only [Taken.map_value, Transform.named, List.mem_cons, Prod.mk.injEq, List.not_mem_nil,
      or_false] at named
    rcases named with ⟨rfl, rfl⟩ | ⟨rfl, rfl⟩ | ⟨rfl, rfl⟩ | ⟨rfl, rfl⟩
    · exact Members.under_of_field read (by simp [Transform.named]) xFound
    · exact Members.under_of_field read (by simp [Transform.named]) yFound
    · exact Members.under_of_field read (by simp [Transform.named]) scaleFound
    · exact Members.under_of_field read (by simp [Transform.named]) rotateFound

end Placement

/-! ## Specifications -/

namespace DocumentSpec

/-- Placements are written in values, one in each. -/
def AreWrittenIn (placements : List Placement) (values : List Value) : Prop :=
  List.Forall₂ (fun value placement => placement.transform.IsWrittenIn value) values placements

theorem exists_mem_of_forall₂ {first second : Type} {related : first → second → Prop}
    {left : List first} {right : List second} (pairs : List.Forall₂ related left right)
    {member : first} (memberMem : member ∈ left) : ∃ other ∈ right, related member other := by
  induction pairs with
  | nil => cases memberMem
  | @cons head partner rest others headRelated _ ih =>
      rcases List.mem_cons.mp memberMem with rfl | memberMem
      · exact ⟨partner, List.mem_cons_self, headRelated⟩
      · rcases ih memberMem with ⟨found, foundMem, foundRelated⟩
        exact ⟨found, List.mem_cons_of_mem partner foundMem, foundRelated⟩

theorem AreWrittenIn.exists_placement {placements : List Placement} {values : List Value}
    (written : AreWrittenIn placements values) {value : Value} (valueMem : value ∈ values) :
    ∃ placement ∈ placements, placement.transform.IsWrittenIn value :=
  exists_mem_of_forall₂ written valueMem

theorem AreWrittenIn.exists_value {placements : List Placement} {values : List Value}
    (written : AreWrittenIn placements values) {placement : Placement}
    (placementMem : placement ∈ placements) :
    ∃ value ∈ values, placement.transform.IsWrittenIn value := by
  have pairs : List.Forall₂ (flip fun value (placement : Placement) =>
    placement.transform.IsWrittenIn value) placements values := List.Forall₂.flip written
  exact exists_mem_of_forall₂ pairs placementMem

namespace Fields

/-- What a member changes about the placements that have been read. -/
def Reads (fields : Fields) (key : String) (source : Value) (next : Fields) : Prop :=
  if key = "placements" then
    fields.placements = .none ∧ ∃ placements, next.placements = some placements ∧
      AreWrittenIn placements source.items
  else next.placements = fields.placements

/-- What an item of an array changes about the placements that have been read: only the fourth one
does. -/
def readsInOrder : List (Fields → Value → Fields → Prop) :=
  let keeps (fields : Fields) (_ : Value) (next : Fields) : Prop :=
    next.placements = fields.placements
  [keeps, keeps, keeps, fun _ source next => ∃ placements,
    next.placements = some placements ∧ AreWrittenIn placements source.items]

theorem accepts_placements :
    (Reader.array Placement.reader).Accepts fun source placements =>
      AreWrittenIn placements source.items := by
  apply (Reader.accepts_array Placement.accepts_reader).mono
  rintro _ placements ⟨items, rfl, written⟩
  exact written

theorem accepts_gradient : Gradient.reader.Accepts fun _ _ => True :=
  (Reader.accepts_stringPair.map _).mono fun _ _ _ => trivial

theorem accepts_of_choose (fields : Fields) (key : String) (found : Reader Fields)
    (chosen : fields.choose key = .ok found) : found.Accepts (fields.Reads key) := by
  have strings := Reader.accepts_array Reader.accepts_string
  have gradients := Reader.accepts_array accepts_gradient
  unfold choose at chosen
  split_ifs at chosen with isColors isGradients isBackgrounds isPlacements
  · apply (accepts_of_readField strings chosen).2.mono
    rintro source next ⟨read, _, rfl⟩
    rw [Reads, if_neg (by rw [isColors]; decide)]
    rfl
  · apply (accepts_of_readField gradients chosen).2.mono
    rintro source next ⟨read, _, rfl⟩
    rw [Reads, if_neg (by rw [isGradients]; decide)]
    rfl
  · apply (accepts_of_readField strings chosen).2.mono
    rintro source next ⟨read, _, rfl⟩
    rw [Reads, if_neg (by rw [isBackgrounds]; decide)]
    rfl
  · rcases accepts_of_readField accepts_placements chosen with ⟨unread, accepts⟩
    apply accepts.mono
    rintro source next ⟨placements, written, rfl⟩
    rw [Reads, if_pos isPlacements]
    exact ⟨unread, placements, rfl, written⟩
  · apply (accepts_of_skipField chosen).mono
    rintro source next rfl
    rw [Reads, if_neg isPlacements]

theorem accepts_inOrder :
    List.Forall₂ (fun field step => ∀ fields, (field fields).Accepts (step fields)) inOrder
      readsInOrder := by
  have strings := Reader.accepts_array Reader.accepts_string
  have gradients := Reader.accepts_array accepts_gradient
  refine .cons ?_ (.cons ?_ (.cons ?_ (.cons ?_ .nil)))
  · intro fields
    apply (strings.map _).mono
    rintro source next ⟨read, _, rfl⟩
    rfl
  · intro fields
    apply (gradients.map _).mono
    rintro source next ⟨read, _, rfl⟩
    rfl
  · intro fields
    apply (strings.map _).mono
    rintro source next ⟨read, _, rfl⟩
    rfl
  · intro fields
    apply (accepts_placements.map _).mono
    rintro source next ⟨placements, written, rfl⟩
    exact ⟨placements, rfl, written⟩

/-- The placements that have been read from members are written in the values under their name. -/
theorem areWrittenIn_of_readsMembers {start final : Fields}
    {members : List (Option String × Value)} (read : Reader.ReadsMembers Reads start members final)
    {earlier : List Value} (written : AreWrittenIn (start.placements.getD []) earlier)
    (unread : start.placements = .none → earlier = []) :
    AreWrittenIn (final.placements.getD [])
      (earlier ++ (Value.valuesUnder "placements" members).flatMap Value.items) := by
  induction read generalizing earlier with
  | nil => simpa [Value.valuesUnder] using written
  | @cons state next final key value rest step later ih =>
      rw [Reads] at step
      split at step
      · rename_i isPlacements
        subst isPlacements
        rcases step with ⟨noneBefore, placements, someAfter, placementsWritten⟩
        cases unread noneBefore
        rw [Value.valuesUnder_cons_of_eq, List.flatMap_cons, List.nil_append]
        apply ih
        · rw [someAfter]
          exact placementsWritten
        · intro noneAfter
          rw [someAfter] at noneAfter
          cases noneAfter
      · rename_i other
        have apart : (some key, value).1 ≠ some "placements" := fun equal =>
          other (Option.some.inj equal)
        rw [Value.valuesUnder_cons_of_ne apart]
        apply ih
        · rw [step]
          exact written
        · rw [step]
          exact unread

/-- The placements that have been read from an array are written at its fourth place. -/
theorem areWrittenIn_of_readsItems {final : Fields} {items : List Value}
    (read : Reader.ReadsItems readsInOrder .none items final) :
    AreWrittenIn (final.placements.getD []) (placementValues (.array items)) := by
  rcases read with _ | ⟨firstKept, read⟩
  · exact .nil
  rcases read with _ | ⟨secondKept, read⟩
  · rw [firstKept]
    exact .nil
  rcases read with _ | ⟨thirdKept, read⟩
  · rw [secondKept, firstKept]
    exact .nil
  rcases read with _ | ⟨⟨placements, placementsEq, written⟩, read⟩
  · rw [thirdKept, secondKept, firstKept]
    exact .nil
  cases read
  rw [placementsEq]
  exact written

end Fields

/-- A text that is accepted has the tokens of a value in which all placements are written. -/
theorem exists_value_of_ofJson {text : String} {spec : DocumentSpec}
    (accepted : ofJson text = .ok spec) :
    ∃ source : Value, tokens text.toList = source.tokens ∧
      AreWrittenIn spec.placements (placementValues source) := by
  have accepts := Reader.accepts_record Fields.accepts_inOrder Fields.accepts_of_choose .none
  rcases Reader.exists_value_of_whole (accepts.map Fields.complete) accepted with
    ⟨source, tokensEq, fields, read, rfl⟩
  refine ⟨source, tokensEq, ?_⟩
  rcases read with ⟨items, rfl, read⟩ | ⟨members, rfl, read⟩
  · exact Fields.areWrittenIn_of_readsItems read
  · exact Fields.areWrittenIn_of_readsMembers read .nil fun _ => rfl

end DocumentSpec

end TikzGlyph
