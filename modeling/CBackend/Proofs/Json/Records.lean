import CBackend.Description.Record
import CBackend.Proofs.Json.Reading

/-!
# Records as objects

The forms in which the parts of a record may be written as JSON.  An object
has the fields of a record in any order, leaves out those that are not given,
and may have members besides that the record does not know.  A field with its
default value is given or left out.

A decoder reads a form if it finds the value in each JSON value of that form,
as long as arrays and objects are not nested too deep in it.
-/

namespace CBackend.Json

def text (value : String) : Json := .string (some value)

def TextForm (value : String) (json : Json) : Prop := json = text value

/-- A natural number below a bound, in decimal digits. -/
def NaturalForm (bound value : Nat) (json : Json) : Prop :=
  value < bound ∧ json = .number (.integer false value)

inductive ListForm (form : α → Json → Prop) : List α → Json → Prop where
  | nil : ListForm form [] (.array [])
  | cons {value : α} {values : List α} {item : Json} {items : List Json}
      (isForm : form value item) (later : ListForm form values (.array items)) :
      ListForm form (value :: values) (.array (item :: items))

/-- A field with a default value may be left out if it has this value. -/
inductive Defaulted (default : α) (form : α → Json → Prop) : α → Option Json → Prop where
  | omitted : Defaulted default form default none
  | given {value : α} {json : Json} (isForm : form value json) :
      Defaulted default form value (some json)

/-- The members of an object for the fields that are given. -/
def given : List (String × Option Json) → List Member
  | [] => []
  | (_, none) :: later => given later
  | (key, some value) :: later => ⟨some key, value⟩ :: given later

/-- An object with the fields that are given, in any order, and with members
whose keys are neither keys of fields nor excluded. -/
inductive ObjectOf (excluded : List String) (fields : List (String × Option Json)) :
    Json → Prop where
  | object {members others : List Member} (order : members.Perm (given fields ++ others))
      (unknown : ∀ member ∈ others, ∀ key ∈ fields.map Prod.fst ++ excluded,
        member.key ≠ some key) :
      ObjectOf excluded fields (.object members)

section Keys

variable {fields : List (String × Option Json)} {excluded : List String} {value : Json}

theorem given_filter_absent {key : String} (absent : key ∉ fields.map Prod.fst) :
    (given fields).filter (·.key == some key) = [] := by
  induction fields with
  | nil => rfl
  | cons field later induction =>
      obtain ⟨first, json⟩ := field
      have differs := List.ne_of_not_mem_cons absent
      have laterAbsent := List.not_mem_of_not_mem_cons absent
      cases json with
      | none => exact induction laterAbsent
      | some json => simp [given, differs.symm, induction laterAbsent]

theorem given_filter_present (distinct : (fields.map Prod.fst).Nodup)
    {key : String} {json : Option Json} (member : (key, json) ∈ fields) :
    (given fields).filter (·.key == some key) = json.toList.map (⟨some key, ·⟩) := by
  induction fields with
  | nil => cases member
  | cons field later induction =>
      obtain ⟨first, other⟩ := field
      obtain ⟨absent, others⟩ := List.nodup_cons.mp distinct
      rcases List.mem_cons.mp member with same | isLater
      · cases same
        cases json <;> simp [given, given_filter_absent absent]
      · have differs : first ≠ key := by
          rintro rfl
          exact absent (List.mem_map.mpr ⟨_, isLater, rfl⟩)
        cases other with
        | none => exact induction others isLater
        | some other => simp [given, differs, induction others isLater]

theorem given_keys {member : Member} (isGiven : member ∈ given fields) :
    ∃ key ∈ fields.map Prod.fst, member.key = some key := by
  induction fields with
  | nil => cases isGiven
  | cons field later induction =>
      obtain ⟨first, _ | json⟩ := field
      · obtain ⟨key, isKey, same⟩ := induction isGiven
        exact ⟨key, List.mem_cons_of_mem _ isKey, same⟩
      · rcases List.mem_cons.mp isGiven with rfl | isLater
        · exact ⟨first, List.mem_cons_self, rfl⟩
        · obtain ⟨key, isKey, same⟩ := induction isLater
          exact ⟨key, List.mem_cons_of_mem _ isKey, same⟩

theorem lookupOnce_of_filter {members : List Member} {key : String} {json : Option Json}
    (filtered : members.filter (·.key == some key) = json.toList.map (⟨some key, ·⟩)) :
    lookupOnce members key = some json := by
  rw [lookupOnce, filtered]
  cases json <;> rfl

/-- Members with unknown keys come into no lookup of a key. -/
theorem filter_of_order {members others : List Member} {key : String} {json : Option Json}
    (order : members.Perm (given fields ++ others))
    (unknown : ∀ member ∈ others, member.key ≠ some key)
    (filtered : (given fields).filter (·.key == some key) = json.toList.map (⟨some key, ·⟩)) :
    members.filter (·.key == some key) = json.toList.map (⟨some key, ·⟩) := by
  have others : others.filter (·.key == some key) = [] := by
    rw [List.filter_eq_nil_iff]
    intro member isMember
    simpa using unknown member isMember
  have same := order.filter (·.key == some key)
  rw [List.filter_append, filtered, others, List.append_nil] at same
  cases json with
  | none => exact List.perm_nil.mp same
  | some json => exact List.perm_singleton.mp same

/-- A key of a field has the value of the field. -/
theorem lookupOnce_field {members others : List Member}
    (order : members.Perm (given fields ++ others))
    (unknown : ∀ member ∈ others, ∀ key ∈ fields.map Prod.fst ++ excluded, member.key ≠ some key)
    (distinct : (fields.map Prod.fst).Nodup) {key : String} {json : Option Json}
    (member : (key, json) ∈ fields) : lookupOnce members key = some json := by
  have isKey : key ∈ fields.map Prod.fst := List.mem_map.mpr ⟨_, member, rfl⟩
  apply lookupOnce_of_filter
  exact filter_of_order order
    (fun other isOther => unknown other isOther key (List.mem_append_left _ isKey))
    (given_filter_present distinct member)

theorem keyed_of_lookups {members : List Member}
    (each : ∀ field ∈ fields, lookupOnce members field.1 = some field.2) :
    keyed (fields.map Prod.fst) (.object members) = some (fields.map Prod.snd) := by
  rw [keyed]
  induction fields with
  | nil => rfl
  | cons field later induction =>
      obtain ⟨first, each⟩ := List.forall_mem_cons.mp each
      rw [List.map_cons, List.mapM_cons, first, induction each]
      rfl

namespace ObjectOf

/-- The fields are found under their keys. -/
theorem keyed (form : ObjectOf excluded fields value) (distinct : (fields.map Prod.fst).Nodup) :
    value.keyed (fields.map Prod.fst) = some (fields.map Prod.snd) := by
  obtain ⟨order, unknown⟩ := form
  exact keyed_of_lookups fun _ member => lookupOnce_field order unknown distinct member

theorem record (form : ObjectOf excluded fields value) (distinct : (fields.map Prod.fst).Nodup) :
    value.record (fields.map Prod.fst) = some (fields.map Prod.snd) := by
  obtain ⟨order, unknown⟩ := form
  exact ObjectOf.keyed ⟨order, unknown⟩ distinct

/-- Nothing is found under an excluded key. -/
theorem keyed_excluded (form : ObjectOf excluded fields value) {keys : List String}
    (isExcluded : keys ⊆ excluded) (absent : List.Disjoint keys (fields.map Prod.fst)) :
    value.keyed keys = some (keys.map fun _ => none) := by
  obtain ⟨order, unknown⟩ := form
  have nothing := @keyed_of_lookups (keys.map fun key => (key, none))
  simp only [List.map_map, Function.comp_def, List.map_id'] at nothing
  apply nothing
  intro field member
  obtain ⟨key, isKey, rfl⟩ := List.mem_map.mp member
  apply lookupOnce_of_filter
  exact filter_of_order order
    (fun other isOther =>
      unknown other isOther key (List.mem_append_right _ (isExcluded isKey)))
    (given_filter_absent (absent isKey))

/-- The tag is found wherever it stands, and what remains has the other fields. -/
theorem tagged {key : String} {tag : Json}
    (form : ObjectOf excluded ((key, some tag) :: fields) value)
    (distinct : (key :: fields.map Prod.fst).Nodup) :
    ∃ rest, value.tagged key = some (tag, rest) ∧ ObjectOf excluded fields rest := by
  cases form with
  | @object members others order unknown =>
      have found : lookupOnce members key = some (some tag) :=
        lookupOnce_field order unknown distinct List.mem_cons_self
      refine ⟨.object (members.filter (·.key != some key)), ?_, ?_⟩
      · rw [Json.tagged, found]
        rfl
      have kept : ∀ member ∈ given fields ++ others, member.key != some key := by
        intro member isMember
        rw [bne_iff_ne]
        rcases List.mem_append.mp isMember with isGiven | isOther
        · obtain ⟨name, isName, same⟩ := given_keys isGiven
          rw [same, Ne, Option.some.injEq]
          rintro rfl
          exact (List.nodup_cons.mp distinct).1 isName
        · exact unknown member isOther key List.mem_cons_self
      refine ⟨?_, fun member isOther name isName =>
        unknown member isOther name (List.mem_cons_of_mem _ isName)⟩
      have remaining := order.filter (·.key != some key)
      rw [given, List.cons_append, List.filter_cons_of_neg (by simp),
        List.filter_eq_self.mpr kept] at remaining
      exact remaining

end ObjectOf

end Keys

theorem nesting_le_of_member {members : List Member} {member : Member}
    (isMember : member ∈ members) : member.value.nesting ≤ membersNesting members := by
  induction members with
  | nil => cases isMember
  | cons first later induction =>
      obtain ⟨key, value⟩ := first
      rw [membersNesting]
      rcases List.mem_cons.mp isMember with rfl | isLater
      · exact Nat.le_max_left _ _
      · exact Nat.le_trans (induction isLater) (Nat.le_max_right _ _)

theorem sound_of_member {members : List Member} (sound : membersSound members = true)
    {member : Member} (isMember : member ∈ members) :
    member.key.isSome = true ∧ member.value.isSound = true := by
  induction members with
  | nil => cases isMember
  | cons first later induction =>
      obtain ⟨key, value⟩ := first
      rw [membersSound, Bool.and_eq_true, Bool.and_eq_true] at sound
      rcases List.mem_cons.mp isMember with rfl | isLater
      · exact sound.1
      · exact induction sound.2 isLater

theorem given_mem {fields : List (String × Option Json)} {key : String} {json : Json}
    (member : (key, some json) ∈ fields) : ⟨some key, json⟩ ∈ given fields := by
  induction fields with
  | nil => cases member
  | cons field later induction =>
      rcases List.mem_cons.mp member with rfl | isLater
      · exact List.mem_cons_self
      · obtain ⟨first, _ | other⟩ := field
        · exact induction isLater
        · exact List.mem_cons_of_mem _ (induction isLater)

namespace ObjectOf

variable {fields : List (String × Option Json)} {excluded : List String} {value : Json}

/-- The fields of an object are nested less deep than the object. -/
theorem inside (form : ObjectOf excluded fields value) {limit : Nat}
    (shallow : value.nesting ≤ limit) :
    ∀ field ∈ fields, ∀ json ∈ field.2, json.nesting < limit := by
  obtain ⟨order, unknown⟩ := form
  rintro ⟨key, _⟩ member json ⟨⟩
  have isMember := order.mem_iff.mpr (List.mem_append_left _ (given_mem member))
  have below := nesting_le_of_member isMember
  rw [nesting] at shallow
  dsimp only at below
  omega

theorem sound (form : ObjectOf excluded fields value) (sound : value.isSound = true) :
    ∀ field ∈ fields, ∀ json ∈ field.2, json.isSound = true := by
  obtain ⟨order, unknown⟩ := form
  rintro ⟨key, _⟩ member json ⟨⟩
  have isMember := order.mem_iff.mpr (List.mem_append_left _ (given_mem member))
  rw [isSound] at sound
  exact (sound_of_member sound isMember).2

end ObjectOf

/-- A decoder finds the value in what has the form of the value and is nested
less deep than a limit. -/
def Reads (limit : Nat) (form : α → Json → Prop) (decode : Json → Option α) : Prop :=
  ∀ ⦃value : α⦄ ⦃json : Json⦄, form value json → json.nesting < limit → decode json = some value

@[simp] theorem string?_text (value : String) : string? (text value) = some value := rfl

@[simp] theorem required_text (value : String) :
    required string? (some (text value)) = some value := rfl

theorem text_reads (limit : Nat) : Reads limit TextForm string? := by
  rintro value _ rfl _
  rfl

theorem natural_reads (limit bound : Nat) : Reads limit (NaturalForm bound) (natural? bound) := by
  rintro value _ ⟨small, rfl⟩ _
  exact Number.natural?_integer small

namespace Reads

variable {limit : Nat} {form : α → Json → Prop} {decode : Json → Option α}

theorem list (reads : Reads limit form decode) : Reads limit (ListForm form) (list? decode) := by
  intro values json isForm
  induction isForm with
  | nil => exact fun _ => rfl
  | @cons value values item items isForm _ induction =>
      intro shallow
      rw [nesting, itemsNesting] at shallow
      have later : items.mapM decode = some values := induction (by rw [nesting]; omega)
      rw [list?, List.mapM_cons, reads isForm (by omega), later]
      rfl

theorem withDefault (reads : Reads limit form decode) {default value : α} {json : Option Json}
    (isForm : Defaulted default form value json) (inside : ∀ item ∈ json, item.nesting < limit) :
    withDefault default decode json = some value := by
  cases isForm with
  | omitted => rfl
  | given isForm => exact reads isForm (inside _ rfl)

theorem required (reads : Reads limit form decode) {value : α} {json : Json}
    (isForm : form value json) (inside : ∀ item ∈ some json, item.nesting < limit) :
    required decode (some json) = some value :=
  reads isForm (inside _ rfl)

end Reads

end CBackend.Json
