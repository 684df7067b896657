import CBackend.Proofs.Lowering.DeclaredTypes
import CBackend.Proofs.Lowering.HeaderOrder

/-!
# Complete types in a header

C needs the definition of a struct before it is held by value: as a member,
as the element of an array, or as a member of an anonymous struct of results.
The last two can stand anywhere inside a declarator, under pointers and in
the parameters of functions.  A header defines everything that a field holds
by value before the field, but for elements and results deeper inside a
declarator nothing is checked.  They are complete exactly if they belong to
earlier types.
-/

namespace CBackend

open Relation (ReflTransGen)

namespace C

/-- The tag that is held by value where something of the type is, if any. -/
def Ty.embedded : Ty → List String
  | .tagged tag => [tag]
  | .array element _ => element.embedded
  | _ => []

mutual

/-- The tags that must be complete wherever the type is written. -/
def Ty.demanded : Ty → List String
  | .void | .basic _ | .tagged _ => []
  | .aggregate members => demandedByMembers members
  | .pointer target => target.demanded
  | .array element _ => element.embedded ++ element.demanded
  | .function params result => demandedByParams params ++ result.demanded

def demandedByMembers : List Entity → List String
  | [] => []
  | ⟨_, type⟩ :: later => type.embedded ++ type.demanded ++ demandedByMembers later

def demandedByParams : List Entity → List String
  | [] => []
  | ⟨_, type⟩ :: later => type.demanded ++ demandedByParams later

end

/-- The tags that must be complete where a member of the type is declared. -/
def Ty.neededByMember (type : Ty) : List String := type.embedded ++ type.demanded

/-- Every definition comes after those of the tags that its members need, where
`known` is defined before. -/
def DefinesBefore (needed : Ty → List String) : List String → List StructDefinition → Prop
  | _, [] => True
  | known, definition :: later =>
    (∀ member ∈ definition.members, needed member.entity.type ⊆ known) ∧
      DefinesBefore needed (definition.tag :: known) later

end C

/-- The types that must be complete where a type of this shape is written. -/
def FunctionType.demanding (type : FunctionType) : List TypeNumber :=
  match type.results with
  | [] | [_] => []
  | several => several.map Field.type

def Shape.demanding : Shape → List TypeNumber
  | .array element _ => [element]
  | .function type => type.demanding
  | _ => []

theorem FunctionType.demanding_subset_mentions (type : FunctionType) :
    type.demanding ⊆ type.mentions := by
  obtain ⟨params, results⟩ := type
  rw [FunctionType.mentions, List.map_append]
  rcases results with _ | ⟨single, _ | ⟨second, others⟩⟩
  · exact List.nil_subset _
  · exact List.nil_subset _
  · exact List.subset_append_right _ _

theorem Shape.demanding_subset_spelled (shape : Shape) :
    shape.demanding ⊆ shape.spelled := by
  cases shape with
  | array _ _ => exact List.Subset.refl _
  | function type => exact type.demanding_subset_mentions
  | basic _ => exact List.nil_subset _
  | pointer _ _ => exact List.nil_subset _
  | struct _ _ _ => exact List.nil_subset _
  | trait _ _ => exact List.nil_subset _
  | aliasOf _ _ => exact List.nil_subset _

theorem Shape.name_of_tag {shape : Shape} {tag : String} (tagged : shape.tag? = some tag) :
    shape.name? = some tag := by
  rcases Shape.struct_or_trait tagged with ⟨_, _, rfl⟩ | ⟨_, rfl⟩
  · rfl
  · rfl

namespace TypeStore

/-- A struct or trait that must be complete wherever a type is written:
somewhere inside there is an array that has it as an element, or a function
that has it as one of several results. -/
def Demands (store : TypeStore) (number inner : TypeNumber) (tag : String) : Prop :=
  ∃ place shape part, ReflTransGen store.Spells number place ∧
    store.shapeAt place = .ok shape ∧ part ∈ shape.demanding ∧ store.Holds part inner tag

variable {store : TypeStore} {inner : TypeNumber} {tag : String}

theorem demands_iff {number : TypeNumber} {shape : Shape}
    (isShape : store.shapeAt number = .ok shape) :
    store.Demands number inner tag ↔
      (∃ part ∈ shape.demanding, store.Holds part inner tag) ∨
        ∃ next ∈ shape.spelled, store.Demands next inner tag := by
  constructor
  · rintro ⟨place, found, part, walk, isFound, demanding, holds⟩
    rcases ReflTransGen.cases_head walk with rfl | ⟨next, ⟨other, isOther, member⟩, walk⟩
    · rw [isShape] at isFound
      cases isFound
      exact .inl ⟨part, demanding, holds⟩
    · rw [isShape] at isOther
      cases isOther
      exact .inr ⟨next, member, place, found, part, walk, isFound, demanding, holds⟩
  · rintro (⟨part, demanding, holds⟩ |
      ⟨next, member, place, found, part, walk, isFound, demanding, holds⟩)
    · exact ⟨number, shape, part, .refl, isShape, demanding, holds⟩
    · exact ⟨place, found, part, .head ⟨shape, isShape, member⟩ walk, isFound, demanding,
        holds⟩

/-- A type in C embeds and demands what a type of the store does. -/
structure Matches (store : TypeStore) (number : TypeNumber) (type : C.Ty) : Prop where
  embedded : ∀ tag, tag ∈ type.embedded ↔ ∃ inner, store.Holds number inner tag
  demanded : ∀ tag, tag ∈ type.demanded ↔ ∃ inner, store.Demands number inner tag

/-- A struct or trait that must be complete where a function is declared. -/
def FunctionDemands (store : TypeStore) (type : FunctionType) (inner : TypeNumber)
    (tag : String) : Prop :=
  (∃ part ∈ type.demanding, store.Holds part inner tag) ∨
    ∃ mentioned ∈ type.mentions, store.Demands mentioned inner tag

theorem functionDemands_iff {type : FunctionType} :
    (∃ inner, store.FunctionDemands type inner tag) ↔
      (∃ param ∈ type.params, ∃ inner, store.Demands param.type inner tag) ∨
      (∃ part ∈ type.demanding, ∃ inner, store.Holds part inner tag) ∨
      ∃ result ∈ type.results, ∃ inner, store.Demands result.type inner tag := by
  constructor
  · rintro ⟨inner, ⟨part, demanding, holds⟩ | ⟨mentioned, member, demands⟩⟩
    · exact .inr (.inl ⟨part, demanding, inner, holds⟩)
    · obtain ⟨field, isField, rfl⟩ := List.mem_map.mp member
      rcases List.mem_append.mp isField with isParam | isResult
      · exact .inl ⟨field, isParam, inner, demands⟩
      · exact .inr (.inr ⟨field, isResult, inner, demands⟩)
  · rintro (⟨param, member, inner, demands⟩ | ⟨part, demanding, inner, holds⟩ |
      ⟨result, member, inner, demands⟩)
    · exact ⟨inner, .inr ⟨param.type,
        List.mem_map_of_mem (List.mem_append_left _ member), demands⟩⟩
    · exact ⟨inner, .inl ⟨part, demanding, holds⟩⟩
    · exact ⟨inner, .inr ⟨result.type,
        List.mem_map_of_mem (List.mem_append_right _ member), demands⟩⟩

section Types

variable {typeOf : TypeNumber → Option C.Ty}

theorem entitiesBy_cons {field : Field} {fields : List Field} {entities : List C.Entity}
    (found : entitiesBy typeOf (field :: fields) = some entities) :
    ∃ type later, typeOf field.type = some type ∧ entitiesBy typeOf fields = some later ∧
      entities = ⟨field.name, type⟩ :: later := by
  rw [entitiesBy, List.mapM_cons] at found
  obtain ⟨first, isFirst, found⟩ := Option.bind_eq_some_iff.mp found
  obtain ⟨later, isLater, same⟩ := Option.bind_eq_some_iff.mp found
  obtain ⟨type, isType, rfl⟩ := Option.map_eq_some_iff.mp isFirst
  exact ⟨type, later, isType, isLater, (Option.some.inj same).symm⟩

variable (agree : ∀ number type, typeOf number = some type → store.Matches number type)

include agree

theorem demandedByParams_iff {fields : List Field} {entities : List C.Entity}
    (found : entitiesBy typeOf fields = some entities) :
    tag ∈ C.demandedByParams entities ↔
      ∃ field ∈ fields, ∃ inner, store.Demands field.type inner tag := by
  induction fields generalizing entities with
  | nil =>
      cases found
      simp [C.demandedByParams]
  | cons field fields induction =>
      obtain ⟨type, later, isType, isLater, rfl⟩ := entitiesBy_cons found
      rw [C.demandedByParams, List.mem_append, (agree _ _ isType).demanded,
        induction isLater, List.exists_mem_cons_iff]

theorem demandedByMembers_iff {fields : List Field} {entities : List C.Entity}
    (found : entitiesBy typeOf fields = some entities) :
    tag ∈ C.demandedByMembers entities ↔
      ∃ field ∈ fields, ∃ inner,
        store.Holds field.type inner tag ∨ store.Demands field.type inner tag := by
  induction fields generalizing entities with
  | nil =>
      cases found
      simp [C.demandedByMembers]
  | cons field fields induction =>
      obtain ⟨type, later, isType, isLater, rfl⟩ := entitiesBy_cons found
      rw [C.demandedByMembers, List.mem_append, List.mem_append,
        (agree _ _ isType).embedded, (agree _ _ isType).demanded, ← exists_or,
        induction isLater, List.exists_mem_cons_iff]

/-- Several results are members of a struct and must be complete; a single one
need not be. -/
theorem result_demanded_iff {fields : List Field} {params : List Field} {meaning : C.Ty}
    (found : resultBy typeOf fields = some meaning) :
    tag ∈ meaning.demanded ↔
      (∃ part ∈ FunctionType.demanding ⟨params, fields⟩,
        ∃ inner, store.Holds part inner tag) ∨
      ∃ result ∈ fields, ∃ inner, store.Demands result.type inner tag := by
  rcases fields with _ | ⟨single, _ | ⟨second, others⟩⟩
  · cases found
    simp [C.Ty.demanded, FunctionType.demanding]
  · rw [(agree single.type meaning found).demanded]
    simp [FunctionType.demanding]
  · obtain ⟨members, isMembers, rfl⟩ := Option.map_eq_some_iff.mp found
    rw [C.Ty.demanded, demandedByMembers_iff agree isMembers]
    simp only [FunctionType.demanding, List.mem_map, exists_exists_and_eq_and, exists_or,
      and_or_left]

theorem function_demanded_iff {type : FunctionType} {meaning : C.Ty}
    (found : type.typeBy typeOf = some meaning) :
    tag ∈ meaning.demanded ↔ ∃ inner, store.FunctionDemands type inner tag := by
  obtain ⟨params, isParams, found⟩ := Option.bind_eq_some_iff.mp found
  obtain ⟨result, isResult, same⟩ := Option.bind_eq_some_iff.mp found
  cases same
  rw [functionDemands_iff, C.Ty.demanded, List.mem_append,
    demandedByParams_iff agree isParams, result_demanded_iff agree isResult]

theorem matches_of_typeBy {number : TypeNumber} {shape : Shape} {type : C.Ty}
    (isShape : store.shapeAt number = .ok shape) (found : shape.typeBy typeOf = some type) :
    store.Matches number type := by
  have demands : ∀ tag, (∃ inner, store.Demands number inner tag) ↔
      ∃ inner, (∃ part ∈ shape.demanding, store.Holds part inner tag) ∨
        ∃ next ∈ shape.spelled, store.Demands next inner tag :=
    fun tag => exists_congr fun _ => demands_iff isShape
  cases shape with
  | basic code =>
      obtain ⟨name, _, rfl⟩ := Option.map_eq_some_iff.mp found
      constructor
      · intro tag
        simp [C.Ty.embedded, holds_of_bare isShape rfl, HasTag, isShape, Shape.tag?]
      · intro tag
        simp [C.Ty.demanded, demands, Shape.demanding, Shape.spelled]
  | struct name fields signature =>
      cases found
      constructor
      · intro tag
        simp [C.Ty.embedded, holds_of_bare isShape rfl, HasTag, isShape, Shape.tag?, eq_comm]
      · intro tag
        simp [C.Ty.demanded, demands, Shape.demanding, Shape.spelled]
  | trait name prototypes =>
      cases found
      constructor
      · intro tag
        simp [C.Ty.embedded, holds_of_bare isShape rfl, HasTag, isShape, Shape.tag?, eq_comm]
      · intro tag
        simp [C.Ty.demanded, demands, Shape.demanding, Shape.spelled]
  | pointer mode pointee =>
      obtain ⟨target, isTarget, rfl⟩ := Option.map_eq_some_iff.mp found
      constructor
      · intro tag
        simp [C.Ty.embedded, holds_of_bare isShape rfl, HasTag, isShape, Shape.tag?]
      · intro tag
        simp [C.Ty.demanded, demands, Shape.demanding, Shape.spelled,
          (agree pointee target isTarget).demanded]
  | array element capacity =>
      obtain ⟨target, isTarget, rfl⟩ := Option.map_eq_some_iff.mp found
      constructor
      · intro tag
        simp [C.Ty.embedded, holds_of_stripped isShape rfl,
          (agree element target isTarget).embedded]
      · intro tag
        simp [C.Ty.demanded, demands, Shape.demanding, Shape.spelled, exists_or,
          (agree element target isTarget).embedded, (agree element target isTarget).demanded]
  | function type =>
      obtain ⟨meaning, isMeaning, rfl⟩ := Option.map_eq_some_iff.mp found
      constructor
      · intro tag
        simp [C.Ty.embedded, holds_of_bare isShape rfl, HasTag, isShape, Shape.tag?]
      · intro tag
        rw [C.Ty.demanded, function_demanded_iff agree isMeaning, demands]
        rfl
  | aliasOf name target =>
      constructor
      · intro tag
        simp [holds_of_stripped isShape rfl, (agree target type found).embedded]
      · intro tag
        simp [demands, Shape.demanding, Shape.spelled, (agree target type found).demanded]

end Types

theorem typeInC?_matches {number : TypeNumber} {type : C.Ty}
    (found : store.typeInC? number = some type) : store.Matches number type := by
  induction number using Nat.strongRecOn generalizing type with
  | ind number induction =>
      rw [typeInC?] at found
      obtain ⟨shape, isShape, found⟩ := Option.bind_eq_some_iff.mp found
      refine matches_of_typeBy ?_ (shapeAt_ok_iff.mpr isShape) found
      intro below type isType
      split at isType
      · rename_i smaller
        exact induction below smaller isType
      · cases isType

/-- What the members of a struct hold by value. -/
def MemberHolds (store : TypeStore) : Shape → TypeNumber → String → Prop
  | .struct _ fields _, inner, tag => ∃ field ∈ fields, store.Holds field.type inner tag
  | _, _, _ => False

/-- What must be complete wherever the members of a struct or trait are
written. -/
def MemberDemands (store : TypeStore) : Shape → TypeNumber → String → Prop
  | .struct _ fields _, inner, tag => ∃ field ∈ fields, store.Demands field.type inner tag
  | .trait _ prototypes, inner, tag =>
    ∃ prototype ∈ prototypes, store.FunctionDemands prototype.type inner tag
  | _, _, _ => False

/-- Some member needs a tag exactly if what it was declared from does. -/
theorem exists_member_iff {α : Type} {needs : α → TypeNumber → Prop}
    {isNeeded : C.Declaration → Prop} {items : List α} {members : List C.Declaration}
    (related : List.Forall₂ (fun item member => isNeeded member ↔ ∃ inner, needs item inner)
      items members) :
    (∃ member ∈ members, isNeeded member) ↔ ∃ inner, ∃ item ∈ items, needs item inner := by
  induction related with
  | nil => simp
  | cons first _ induction =>
      simp only [List.exists_mem_cons_iff, first, induction, exists_or]

/-- The members of a struct have the types of its fields. -/
theorem declareFields_matches {fields : List Field} {members : List C.Declaration}
    (declared : store.declareFields fields = .ok members) :
    List.Forall₂ (fun field member => store.Matches field.type member.entity.type)
      fields members := by
  refine (Success.mapM_iff.mp declared).imp fun field member success => ?_
  obtain ⟨type, found, same⟩ := declare_denotes success
  rw [same]
  exact typeInC?_matches found

/-- The members of a trait are pointers to functions. -/
theorem declareFunctionPointer_demands {type : FunctionType} {name : String}
    {member : C.Declaration}
    (success : store.declareFunctionPointer type name = .ok member) :
    member.entity.type.embedded = [] ∧ ∀ tag, tag ∈ member.entity.type.demanded ↔
      ∃ inner, store.FunctionDemands type inner tag := by
  obtain ⟨meaning, found, same⟩ := declareFunction_denotes success
  rw [same]
  refine ⟨rfl, fun tag => ?_⟩
  change tag ∈ (C.Ty.pointer meaning).demanded ↔ _
  rw [C.Ty.demanded]
  exact function_demanded_iff (fun _ _ => typeInC?_matches) found

theorem Defined.embedded_iff {shape : Shape} {definition : C.StructDefinition}
    (defined : store.Defined shape definition) (tag : String) :
    (∃ member ∈ definition.members, tag ∈ member.entity.type.embedded) ↔
      ∃ inner, store.MemberHolds shape inner tag := by
  cases defined with
  | struct declared =>
      exact exists_member_iff ((declareFields_matches declared).imp
        fun _ _ agree => agree.embedded tag)
  | trait declared =>
      refine iff_of_false ?_ (fun ⟨_, holds⟩ => holds)
      rintro ⟨member, isMember, embedded⟩
      obtain ⟨prototype, _, success⟩ := Success.related_of_mem
        (Success.mapM_iff.mp declared).flip member isMember
      rw [(declareFunctionPointer_demands success).1] at embedded
      cases embedded

theorem Defined.demanded_iff {shape : Shape} {definition : C.StructDefinition}
    (defined : store.Defined shape definition) (tag : String) :
    (∃ member ∈ definition.members, tag ∈ member.entity.type.demanded) ↔
      ∃ inner, store.MemberDemands shape inner tag := by
  cases defined with
  | struct declared =>
      exact exists_member_iff ((declareFields_matches declared).imp
        fun _ _ agree => agree.demanded tag)
  | trait declared =>
      exact exists_member_iff ((Success.mapM_iff.mp declared).imp
        fun _ _ success => (declareFunctionPointer_demands success).2 tag)

theorem MemberHolds.hasTag {shape : Shape} (holds : store.MemberHolds shape inner tag) :
    shape.tag? ≠ none ∧ store.HasTag inner tag := by
  cases shape with
  | struct name fields signature =>
      obtain ⟨_, _, _, hasTag⟩ := holds
      exact ⟨nofun, hasTag⟩
  | basic _ => cases holds
  | pointer _ _ => cases holds
  | array _ _ => cases holds
  | function _ => cases holds
  | trait _ _ => cases holds
  | aliasOf _ _ => cases holds

theorem Demands.hasTag {number : TypeNumber} (demands : store.Demands number inner tag) :
    store.HasTag inner tag := by
  obtain ⟨_, _, _, _, _, _, _, hasTag⟩ := demands
  exact hasTag

theorem MemberDemands.hasTag {shape : Shape} (demands : store.MemberDemands shape inner tag) :
    shape.tag? ≠ none ∧ store.HasTag inner tag := by
  cases shape with
  | struct name fields signature =>
      obtain ⟨_, _, fieldDemands⟩ := demands
      exact ⟨nofun, fieldDemands.hasTag⟩
  | trait name prototypes =>
      obtain ⟨_, _, ⟨_, _, _, hasTag⟩ | ⟨_, _, inside⟩⟩ := demands
      · exact ⟨nofun, hasTag⟩
      · exact ⟨nofun, inside.hasTag⟩
  | basic _ => cases demands
  | pointer _ _ => cases demands
  | array _ _ => cases demands
  | function _ => cases demands
  | aliasOf _ _ => cases demands

theorem HasTag.unique (distinct : store.names.Nodup) {left right : TypeNumber}
    (isLeft : store.HasTag left tag) (isRight : store.HasTag right tag) : left = right := by
  have apart : ∀ {first second : TypeNumber}, first < second →
      store.HasTag first tag → ¬ store.HasTag second tag := by
    rintro first second smaller ⟨_, isFirst, firstTag⟩ ⟨_, isSecond, secondTag⟩
    obtain ⟨firstInside, firstFound⟩ := List.getElem?_eq_some_iff.mp (shapeAt_ok_iff.mp isFirst)
    obtain ⟨secondInside, secondFound⟩ := List.getElem?_eq_some_iff.mp (shapeAt_ok_iff.mp isSecond)
    have different := List.pairwise_iff_getElem.mp (List.pairwise_filterMap.mp distinct)
      first second firstInside secondInside smaller
    rw [firstFound, secondFound] at different
    exact different tag (Shape.name_of_tag firstTag) tag (Shape.name_of_tag secondTag) rfl
  rcases Nat.lt_trichotomy left right with smaller | same | larger
  · exact absurd isRight (apart smaller isLeft)
  · exact same
  · exact absurd isLeft (apart larger isRight)

/-- The tags of all structs and traits before a type. -/
def TagsBefore (store : TypeStore) (next : TypeNumber) (known : List String) : Prop :=
  ∀ tag, tag ∈ known ↔ ∃ inner < next, store.HasTag inner tag

theorem tagsBefore_zero : store.TagsBefore 0 [] := by
  intro tag
  exact iff_of_false List.not_mem_nil (fun ⟨_, before, _⟩ => Nat.not_lt_zero _ before)

theorem hasTag_iff {number : TypeNumber} {shape : Shape}
    (isShape : store.shapeAt number = .ok shape) :
    store.HasTag number tag ↔ shape.tag? = some tag := by
  simp [HasTag, isShape]

theorem TagsBefore.succ {next : TypeNumber} {shape : Shape} {known : List String}
    (knows : store.TagsBefore next known) (isShape : store.shapeAt next = .ok shape) :
    store.TagsBefore (next + 1) (shape.tag?.toList ++ known) := by
  intro tag
  rw [Nat.exists_lt_succ_right, List.mem_append, knows tag, hasTag_iff isShape,
    Option.mem_toList, or_comm]

/-- The tags that members need in C are those of the types that a struct or
trait needs in the store. -/
structure Reflects (store : TypeStore) (needed : C.Ty → List String)
    (needs : Shape → TypeNumber → String → Prop) : Prop where
  members : ∀ {shape definition}, store.Defined shape definition → ∀ tag,
    (∃ member ∈ definition.members, tag ∈ needed member.entity.type) ↔
      ∃ inner, needs shape inner tag
  tagged : ∀ {shape inner tag}, needs shape inner tag →
    shape.tag? ≠ none ∧ store.HasTag inner tag

theorem holds_reflects : store.Reflects C.Ty.embedded store.MemberHolds :=
  ⟨Defined.embedded_iff, MemberHolds.hasTag⟩

theorem needs_reflects : store.Reflects C.Ty.neededByMember fun shape inner tag =>
    store.MemberHolds shape inner tag ∨ store.MemberDemands shape inner tag := by
  constructor
  · intro shape definition defined tag
    simp only [C.Ty.neededByMember, List.mem_append, and_or_left, exists_or,
      defined.embedded_iff, defined.demanded_iff]
  · rintro shape inner tag (holds | demands)
    · exact holds.hasTag
    · exact demands.hasTag

/-- A definition comes after what its members need exactly if its type does. -/
theorem Reflects.definition_iff (distinct : store.names.Nodup)
    {needed : C.Ty → List String} {needs : Shape → TypeNumber → String → Prop}
    (reflects : store.Reflects needed needs) {shape : Shape}
    {definition : C.StructDefinition} (defined : store.Defined shape definition)
    {next : TypeNumber} {known : List String}
    (knows : store.TagsBefore next known) :
    (∀ member ∈ definition.members, needed member.entity.type ⊆ known) ↔
      ∀ inner tag, needs shape inner tag → inner < next := by
  constructor
  · intro allKnown inner tag isNeeded
    obtain ⟨member, isMember, tagNeeded⟩ :=
      (reflects.members defined tag).mpr ⟨inner, isNeeded⟩
    obtain ⟨other, before, hasTag⟩ := (knows tag).mp (allKnown member isMember tagNeeded)
    rw [(reflects.tagged isNeeded).2.unique distinct hasTag]
    exact before
  · intro allBefore member isMember tag tagNeeded
    obtain ⟨inner, isNeeded⟩ :=
      (reflects.members defined tag).mp ⟨member, isMember, tagNeeded⟩
    exact (knows tag).mpr
      ⟨inner, allBefore inner tag isNeeded, (reflects.tagged isNeeded).2⟩

theorem Reflects.definesBefore_iff (distinct : store.names.Nodup)
    {needed : C.Ty → List String} {needs : Shape → TypeNumber → String → Prop}
    (reflects : store.Reflects needed needs) {shapes : List Shape} {next : TypeNumber}
    {known : List String} {definitions : List C.StructDefinition}
    (rest : store.Rest next shapes)
    (knows : store.TagsBefore next known)
    (related : List.Forall₂ store.Defined (shapes.filter (·.tag?.isSome)) definitions) :
    C.DefinesBefore needed known definitions ↔
      ∀ number, next ≤ number → ∀ shape, store.shapeAt number = .ok shape →
        ∀ inner tag, needs shape inner tag → inner < number := by
  induction shapes generalizing next known definitions with
  | nil =>
      cases related
      refine iff_of_true trivial ?_
      intro number fromNext shape isShape
      exact absurd isShape (rest.missing fromNext shape)
  | cons shape later induction =>
      have isShape := rest.shapeAt
      rw [forall_from_iff]
      have knowsNext := knows.succ isShape
      have here : (∀ found, store.shapeAt next = .ok found →
          ∀ inner tag, needs found inner tag → inner < next) ↔
          ∀ inner tag, needs shape inner tag → inner < next := by
        constructor
        · intro first
          exact first shape isShape
        · intro first found isFound
          rw [isShape] at isFound
          cases isFound
          exact first
      rw [here]
      cases tagged : shape.tag? with
      | none =>
          rw [tagged, Option.toList_none, List.nil_append] at knowsNext
          rw [List.filter_cons_of_neg (by rw [tagged]; exact Bool.false_ne_true)] at related
          rw [induction rest.tail knowsNext related]
          refine (and_iff_right ?_).symm
          intro inner tag isNeeded
          exact absurd tagged (reflects.tagged isNeeded).1
      | some tag =>
          rw [List.filter_cons_of_pos (by rw [tagged]; rfl)] at related
          cases related with
          | cons defined relatedLater =>
              rw [defined.tag, Option.toList_some, List.singleton_append] at knowsNext
              rw [C.DefinesBefore, reflects.definition_iff distinct defined knows,
                induction rest.tail knowsNext relatedLater]

theorem Ordered.holds_le (ordered : store.Ordered) {number : TypeNumber}
    (holds : store.Holds number inner tag) : inner ≤ number := by
  obtain ⟨layers, hasTag⟩ := holds
  clear hasTag
  induction layers with
  | refl => exact Nat.le_refl _
  | tail _ layer induction =>
      obtain ⟨shape, isShape, stripped⟩ := layer
      obtain ⟨mentioned, noStruct, _⟩ := Shape.stripped?_mentions stripped
      have below := ordered.downward _ shape isShape noStruct _ mentioned
      exact Nat.le_trans (Nat.le_of_lt below) induction

theorem Ordered.demands_lt (ordered : store.Ordered) {number : TypeNumber}
    (demands : store.Demands number inner tag) : inner < number := by
  obtain ⟨place, shape, part, walk, isShape, demanding, holds⟩ := demands
  have partBelow : part < place :=
    ordered.spelled_below isShape (shape.demanding_subset_spelled demanding)
  have placeLe : place ≤ number := by
    clear isShape partBelow
    induction walk with
    | refl => exact Nat.le_refl _
    | tail _ step induction =>
        obtain ⟨outer, isOuter, member⟩ := step
        exact Nat.le_trans (Nat.le_of_lt (ordered.spelled_below isOuter member)) induction
  calc
    inner ≤ part := ordered.holds_le holds
    _ < place := partBelow
    _ ≤ number := placeLe

/-- A trait mentions earlier types only, so nothing it needs comes after it. -/
theorem Ordered.trait_demands_lt (ordered : store.Ordered) {number : TypeNumber}
    {name : String} {prototypes : List Prototype}
    (isTrait : store.shapeAt number = .ok (.trait name prototypes))
    (demands : store.MemberDemands (.trait name prototypes) inner tag) : inner < number := by
  obtain ⟨prototype, member, demands⟩ := demands
  have below : ∀ mentioned ∈ prototype.type.mentions, mentioned < number := by
    intro mentioned isMentioned
    exact ordered.downward number _ isTrait rfl mentioned
      (List.mem_flatMap.mpr ⟨prototype, member, isMentioned⟩)
  rcases demands with ⟨part, demanding, holds⟩ | ⟨mentioned, isMentioned, inside⟩
  · exact Nat.lt_of_le_of_lt (ordered.holds_le holds)
      (below part (prototype.type.demanding_subset_mentions demanding))
  · exact Nat.lt_trans (ordered.demands_lt inside) (below mentioned isMentioned)

theorem memberHolds_before {number : TypeNumber} {shape : Shape}
    (inOrder : store.InOrder number) (isShape : store.shapeAt number = .ok shape)
    (holds : store.MemberHolds shape inner tag) : inner < number := by
  cases shape with
  | struct name fields signature =>
      obtain ⟨field, member, holds⟩ := holds
      by_contra later
      exact inOrder name fields signature isShape field member tag
        ⟨inner, holds, Nat.le_of_not_lt later⟩
  | basic _ => cases holds
  | pointer _ _ => cases holds
  | array _ _ => cases holds
  | function _ => cases holds
  | trait _ _ => cases holds
  | aliasOf _ _ => cases holds

end TypeStore

/-- A header defines whatever a member holds by value before the member.  It
defines everything that C needs to be complete exactly if all that the fields
of a struct demand, deep inside their types, comes before the struct. -/
theorem Program.header_complete_iff (name : String) (pointerSize : PointerSize)
    (operations : List Operation) (header : C.Header)
    (success : (history name pointerSize operations).header = .ok header) :
    let types := (history name pointerSize operations).types
    C.DefinesBefore C.Ty.embedded [] header.structs ∧
    (C.DefinesBefore C.Ty.neededByMember [] header.structs ↔
      ∀ number struct fields signature,
        types.shapeAt number = .ok (.struct struct fields signature) →
        ∀ field ∈ fields, ∀ inner tag, types.Demands field.type inner tag →
          inner < number) := by
  intro types
  have founded := history_founded name pointerSize operations
  obtain ⟨related, inOrder, _⟩ := founded.header_sound success
  constructor
  · rw [TypeStore.holds_reflects.definesBefore_iff founded.namesDistinct TypeStore.rest_zero
      TypeStore.tagsBefore_zero related]
    intro number _ shape isShape inner tag
    exact TypeStore.memberHolds_before (inOrder number) isShape
  · rw [TypeStore.needs_reflects.definesBefore_iff founded.namesDistinct TypeStore.rest_zero
      TypeStore.tagsBefore_zero related]
    constructor
    · intro complete number struct fields signature isStruct field member inner tag demands
      exact complete number (Nat.zero_le _) _ isStruct inner tag
        (.inr ⟨field, member, demands⟩)
    · intro before number _ shape isShape inner tag needs
      rcases needs with holds | demands
      · exact TypeStore.memberHolds_before (inOrder number) isShape holds
      · obtain ⟨own, tagged⟩ := Option.ne_none_iff_exists'.mp demands.hasTag.1
        rcases Shape.struct_or_trait tagged with ⟨fields, signature, rfl⟩ | ⟨prototypes, rfl⟩
        · obtain ⟨field, member, fieldDemands⟩ := demands
          exact before number _ fields signature isShape field member inner tag fieldDemands
        · exact founded.ordered.trait_demands_lt isShape demands

/-- A struct with a pointer to arrays of itself. -/
def treeOperations : List Program.Operation :=
  [.types (.announce "Node"), .types (.insert (.array 0 3)),
    .types (.insert (.pointer .safe 1)), .types (.extend 0 ⟨"children", 2⟩)]

def treeProgram : Program where
  name := "tree"
  types := ⟨.eight, [.struct "Node" [⟨"children", 2⟩] [⟨0o44⟩, ⟨0o44⟩, ⟨0⟩, ⟨0⟩], .array 0 3,
    .pointer .safe 1]⟩
  callees := []

/-- The types before the struct is given its field. -/
def childlessTypes : TypeStore :=
  ⟨.eight, [.struct "Node" [] [], .array 0 3, .pointer .safe 1]⟩

theorem childlessTypes_extend :
    childlessTypes.extend 0 ⟨"children", 2⟩ = .ok treeProgram.types := by
  have apart : childlessTypes.walk? 2 0 = .ok none := by
    have isPointer : childlessTypes.shapeAt 2 = .ok (.pointer .safe 1) := rfl
    rw [TypeStore.walk?, TypeStore.search_fresh isPointer (by decide) List.not_mem_nil,
      Shape.embedded, TypeStore.searchAny]
    rfl
  exact TypeStore.extend_success_iff.mpr
    ⟨"Node", [], [], _, rfl, rfl, by decide, apart, by with_unfolding_all rfl, rfl⟩

theorem treeProgram_history : Program.history "tree" .eight treeOperations = treeProgram := by
  have types : childlessTypes.after (.extend 0 ⟨"children", 2⟩) = treeProgram.types := by
    rw [TypeStore.after, TypeStore.Operation.run, childlessTypes_extend]
  exact congrArg (Program.mk "tree" · []) types

/-- The element of the array is the struct that is being defined. -/
theorem Program.tree_incomplete : ∃ header,
    (history "tree" .eight treeOperations).header = .ok header ∧
    header.text = "#pragma once\n#include <stdint.h>\nstruct Node;\n" ++
      "struct Node\x7bstruct Node (*children)[3];\x7d;\n" ∧
    C.DefinesBefore C.Ty.embedded [] header.structs ∧
    ¬ C.DefinesBefore C.Ty.neededByMember [] header.structs := by
  have success : (history "tree" .eight treeOperations).header =
      .ok ⟨["Node"], [⟨"Node",
        [⟨.tagged "Node", .array (.group (.pointer (.name "children"))) 3⟩]⟩], []⟩ := by
    rw [treeProgram_history]
    with_unfolding_all rfl
  obtain ⟨embedded, complete_iff⟩ :=
    header_complete_iff "tree" .eight treeOperations _ success
  refine ⟨_, success, by with_unfolding_all rfl, embedded, ?_⟩
  rw [complete_iff, treeProgram_history]
  intro before
  have demands : treeProgram.types.Demands 2 0 "Node" :=
    ⟨1, .array 0 3, 0, .single ⟨_, rfl, List.mem_cons_self⟩, rfl, List.mem_cons_self, .refl,
      _, rfl, rfl⟩
  exact Nat.lt_irrefl 0 (before 0 "Node" _ _ rfl _ List.mem_cons_self 0 "Node" demands)

end CBackend
