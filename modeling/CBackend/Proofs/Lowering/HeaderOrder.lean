import CBackend.Proofs.Lowering.Spelling

/-!
# The order of definitions in a header

A struct is defined after everything that its fields hold by value, possibly
behind aliases and array layers.  Definitions stand in the order of the
types, so a header exists exactly if everything in it can be spelled and no
struct holds itself or a later type.  The first struct that does is named in
the failure, with what its first such field holds.
-/

namespace CBackend

/-- The type inside an alias or an array layer. -/
def Shape.stripped? : Shape → Option TypeNumber
  | .aliasOf _ inner | .array inner _ => some inner
  | _ => none

theorem Shape.stripped?_mentions {shape : Shape} {inner : TypeNumber}
    (stripped : shape.stripped? = some inner) :
    inner ∈ shape.mentions ∧ shape.isStruct = false ∧ shape.tag? = none := by
  cases shape with
  | aliasOf name target =>
      cases stripped
      exact ⟨List.mem_cons_self, rfl, rfl⟩
  | array element capacity =>
      cases stripped
      exact ⟨List.mem_cons_self, rfl, rfl⟩
  | basic _ => cases stripped
  | pointer _ _ => cases stripped
  | struct _ _ _ => cases stripped
  | function _ => cases stripped
  | trait _ _ => cases stripped

theorem Shape.not_struct_of_untagged {shape : Shape} (untagged : shape.tag? = none) :
    shape.isStruct = false := by
  cases shape with
  | struct _ _ _ => cases untagged
  | trait _ _ => cases untagged
  | basic _ => rfl
  | pointer _ _ => rfl
  | array _ _ => rfl
  | function _ => rfl
  | aliasOf _ _ => rfl

theorem Shape.struct_or_trait {shape : Shape} {tag : String} (tagged : shape.tag? = some tag) :
    (∃ fields signature, shape = .struct tag fields signature) ∨
      ∃ prototypes, shape = .trait tag prototypes := by
  cases shape with
  | struct name fields signature =>
      cases tagged
      exact .inl ⟨fields, signature, rfl⟩
  | trait name prototypes =>
      cases tagged
      exact .inr ⟨prototypes, rfl⟩
  | basic _ => cases tagged
  | pointer _ _ => cases tagged
  | array _ _ => cases tagged
  | function _ => cases tagged
  | aliasOf _ _ => cases tagged

namespace TypeStore

open Relation (ReflTransGen)

/-- One alias or array layer. -/
def Wraps (store : TypeStore) (outer inner : TypeNumber) : Prop :=
  ∃ shape, store.shapeAt outer = .ok shape ∧ shape.stripped? = some inner

def HasTag (store : TypeStore) (number : TypeNumber) (tag : String) : Prop :=
  ∃ shape, store.shapeAt number = .ok shape ∧ shape.tag? = some tag

/-- The struct or trait that stands behind all aliases and array layers. -/
def Holds (store : TypeStore) (number inner : TypeNumber) (tag : String) : Prop :=
  ReflTransGen store.Wraps number inner ∧ store.HasTag inner tag

/-- A field of a struct holds something that does not come before the struct. -/
def HoldsLater (store : TypeStore) (struct : TypeNumber) (field : Field) (tag : String) :
    Prop :=
  ∃ inner, store.Holds field.type inner tag ∧ struct ≤ inner

/-- A type is no struct, or comes after everything that its fields hold. -/
def InOrder (store : TypeStore) (struct : TypeNumber) : Prop :=
  ∀ name fields signature, store.shapeAt struct = .ok (.struct name fields signature) →
    ∀ field ∈ fields, ∀ tag, ¬ store.HoldsLater struct field tag

/-- From the type `next` on, the first struct out of order is called `name`,
and its first field out of order holds `tag`. -/
def FirstOutOfOrder (store : TypeStore) (next : TypeNumber) (name tag : String) : Prop :=
  ∃ struct earlier field later signature, next ≤ struct ∧
    store.shapeAt struct = .ok (.struct name (earlier ++ field :: later) signature) ∧
    store.HoldsLater struct field tag ∧
    (∀ other ∈ earlier, ∀ tag, ¬ store.HoldsLater struct other tag) ∧
    ∀ other, next ≤ other → other < struct → store.InOrder other

/-- All members of a struct or trait can be spelled. -/
def MembersSpellable (store : TypeStore) : Shape → Prop
  | .struct _ fields _ => ∀ field ∈ fields, store.Spellable field.type
  | .trait _ prototypes => ∀ prototype ∈ prototypes, store.SpellableFunction prototype.type
  | _ => True

variable {store : TypeStore}

theorem content_of_stripped {number inner : TypeNumber} {shape : Shape}
    (isShape : store.shapeAt number = .ok shape) (stripped : shape.stripped? = some inner)
    (below : inner < number) : store.content number = store.content inner := by
  rw [content, isShape]
  cases shape with
  | aliasOf name target =>
      cases stripped
      exact dif_pos below
  | array element capacity =>
      cases stripped
      exact dif_pos below
  | basic _ => cases stripped
  | pointer _ _ => cases stripped
  | struct _ _ _ => cases stripped
  | function _ => cases stripped
  | trait _ _ => cases stripped

theorem content_of_bare {number : TypeNumber} {shape : Shape}
    (isShape : store.shapeAt number = .ok shape) (bare : shape.stripped? = none) :
    store.content number = .ok number := by
  rw [content, isShape]
  cases shape with
  | aliasOf _ _ => cases bare
  | array _ _ => cases bare
  | basic _ => rfl
  | pointer _ _ => rfl
  | struct _ _ _ => rfl
  | function _ => rfl
  | trait _ _ => rfl

theorem holds_of_stripped {number next inner : TypeNumber} {shape : Shape} {tag : String}
    (isShape : store.shapeAt number = .ok shape) (stripped : shape.stripped? = some next) :
    store.Holds number inner tag ↔ store.Holds next inner tag := by
  constructor
  · rintro ⟨layers, found, isFound, tagged⟩
    rcases ReflTransGen.cases_head layers with rfl | ⟨_, ⟨other, isOther, first⟩, layers⟩
    · rw [isShape] at isFound
      cases isFound
      rw [(Shape.stripped?_mentions stripped).2.2] at tagged
      cases tagged
    · rw [isShape] at isOther
      cases isOther
      rw [stripped] at first
      cases first
      exact ⟨layers, found, isFound, tagged⟩
  · rintro ⟨layers, tagged⟩
    exact ⟨.head ⟨shape, isShape, stripped⟩ layers, tagged⟩

theorem holds_of_bare {number inner : TypeNumber} {shape : Shape} {tag : String}
    (isShape : store.shapeAt number = .ok shape) (bare : shape.stripped? = none) :
    store.Holds number inner tag ↔ number = inner ∧ store.HasTag inner tag := by
  constructor
  · rintro ⟨layers, tagged⟩
    rcases ReflTransGen.cases_head layers with rfl | ⟨_, ⟨other, isOther, first⟩, _⟩
    · exact ⟨rfl, tagged⟩
    · rw [isShape] at isOther
      cases isOther
      rw [bare] at first
      cases first
  · rintro ⟨rfl, tagged⟩
    exact ⟨.refl, tagged⟩

/-- The content of a type is found, and is the only thing the type can hold. -/
theorem Ordered.content_holds (ordered : store.Ordered) {number : TypeNumber}
    (inside : number < store.size) :
    ∃ content, store.content number = .ok content ∧ content < store.size ∧
      ∀ inner tag, store.Holds number inner tag ↔
        content = inner ∧ store.HasTag inner tag := by
  induction number using Nat.strongRecOn with
  | ind number induction =>
      obtain ⟨shape, isShape⟩ := shapeAt_of_lt inside
      cases stripped : shape.stripped? with
      | none =>
          exact ⟨number, content_of_bare isShape stripped, inside,
            fun _ _ => holds_of_bare isShape stripped⟩
      | some next =>
          obtain ⟨mentioned, noStruct, _⟩ := Shape.stripped?_mentions stripped
          have below := ordered.downward number shape isShape noStruct next mentioned
          obtain ⟨content, found, contentInside, held⟩ :=
            induction next below (Nat.lt_trans below inside)
          refine ⟨content, (content_of_stripped isShape stripped below).trans found,
            contentInside, ?_⟩
          intro inner tag
          rw [holds_of_stripped isShape stripped]
          exact held inner tag

/-- Of the structs and traits, those before `next` are complete. -/
def CompleteBefore (store : TypeStore) (next : TypeNumber) (complete : List TypeNumber) :
    Prop :=
  ∀ number tag, store.HasTag number tag → (number ∈ complete ↔ number < next)

theorem Ordered.requireComplete_cases (ordered : store.Ordered) {struct : TypeNumber}
    {complete : List TypeNumber} (completes : store.CompleteBefore struct complete)
    (name : String) {field : Field} (inside : field.type < store.size) :
    (store.requireComplete complete name field = .ok () ∧
      ∀ tag, ¬ store.HoldsLater struct field tag) ∨
    ∃ tag, store.HoldsLater struct field tag ∧
      store.requireComplete complete name field = .error (.incomplete name tag) := by
  obtain ⟨content, found, contentInside, held⟩ := ordered.content_holds inside
  obtain ⟨shape, isShape⟩ := shapeAt_of_lt contentInside
  have computes : store.requireComplete complete name field =
      shape.tag?.elim (.ok ()) fun tag =>
        if content ∉ complete then .error (.incomplete name tag) else .ok () := by
    rw [requireComplete, found]
    change ((liftM (store.shapeAt content) : Except LoweringError Shape) >>= _) = _
    rw [isShape]
    dsimp only [liftM, monadLift, MonadLift.monadLift, bind, Except.bind]
    cases shape.tag? with
    | none => rfl
    | some tag => rfl
  have holdsContent : ∀ tag, shape.tag? = some tag → store.Holds field.type content tag :=
    fun tag tagged => (held content tag).mpr ⟨rfl, shape, isShape, tagged⟩
  have onlyTag : ∀ tag, store.HoldsLater struct field tag →
      shape.tag? = some tag ∧ struct ≤ content := by
    rintro tag ⟨inner, holds, later⟩
    obtain ⟨rfl, other, isOther, tagged⟩ := (held inner tag).mp holds
    rw [isShape] at isOther
    cases isOther
    exact ⟨tagged, later⟩
  rw [computes]
  cases tagged : shape.tag? with
  | none =>
      refine .inl ⟨rfl, ?_⟩
      intro tag holdsLater
      rw [(onlyTag tag holdsLater).1] at tagged
      cases tagged
  | some tag =>
      have complete_iff := completes content tag ⟨shape, isShape, tagged⟩
      by_cases before : content < struct
      · refine .inl ⟨if_neg (not_not.mpr (complete_iff.mpr before)), ?_⟩
        intro other holdsLater
        exact Nat.not_lt.mpr (onlyTag other holdsLater).2 before
      · exact .inr ⟨tag, ⟨content, holdsContent tag tagged, Nat.le_of_not_lt before⟩,
          if_pos fun member => before (complete_iff.mp member)⟩

/-- Checking the fields of a struct fails at the first that is out of order. -/
theorem Ordered.fieldsComplete_cases (ordered : store.Ordered) {struct : TypeNumber}
    {complete : List TypeNumber} (completes : store.CompleteBefore struct complete)
    (name : String) {fields : List Field} (inside : ∀ field ∈ fields, field.type < store.size) :
    (fields.forM (store.requireComplete complete name) = .ok () ∧
      ∀ field ∈ fields, ∀ tag, ¬ store.HoldsLater struct field tag) ∨
    ∃ earlier field later tag, fields = earlier ++ field :: later ∧
      (∀ other ∈ earlier, ∀ tag, ¬ store.HoldsLater struct other tag) ∧
      store.HoldsLater struct field tag ∧
      fields.forM (store.requireComplete complete name) = .error (.incomplete name tag) := by
  induction fields with
  | nil => exact .inl ⟨rfl, nofun⟩
  | cons field fields induction =>
      obtain ⟨firstInside, laterInside⟩ := List.forall_mem_cons.mp inside
      rw [List.forM]
      rcases ordered.requireComplete_cases completes name firstInside with
        ⟨success, inOrder⟩ | ⟨tag, holdsLater, failure⟩
      · rw [success]
        rcases induction laterInside with ⟨successes, allInOrder⟩ |
          ⟨earlier, other, later, tag, rfl, inOrderBefore, holdsLater, failure⟩
        · exact .inl ⟨successes, List.forall_mem_cons.mpr ⟨inOrder, allInOrder⟩⟩
        · exact .inr ⟨field :: earlier, other, later, tag, rfl,
            List.forall_mem_cons.mpr ⟨inOrder, inOrderBefore⟩, holdsLater, failure⟩
      · rw [failure]
        exact .inr ⟨[], field, fields, tag, rfl, nofun, holdsLater, rfl⟩

/-- How a struct or trait is defined. -/
inductive Defined (store : TypeStore) : Shape → C.StructDefinition → Prop where
  | struct {name : String} {fields : List Field} {signature : Signature}
      {members : List C.Declaration} (declared : store.declareFields fields = .ok members) :
      Defined store (.struct name fields signature) ⟨name, members⟩
  | trait {name : String} {prototypes : List Prototype} {members : List C.Declaration}
      (declared : prototypes.mapM (fun prototype =>
        store.declareFunctionPointer prototype.type prototype.name) = .ok members) :
      Defined store (.trait name prototypes) ⟨name, members⟩

/-- The shapes from `next` on. -/
def Rest (store : TypeStore) (next : TypeNumber) (shapes : List Shape) : Prop :=
  store.shapes.drop next = shapes

theorem rest_zero : store.Rest 0 store.shapes := rfl

section Rest

variable {next : TypeNumber} {shape : Shape} {later : List Shape}

theorem Rest.shapeAt (rest : store.Rest next (shape :: later)) :
    store.shapeAt next = .ok shape := by
  rw [shapeAt_ok_iff, ← List.head?_drop, rest, List.head?_cons]

theorem Rest.tail (rest : store.Rest next (shape :: later)) :
    store.Rest (next + 1) later := by
  rw [Rest, ← List.tail_drop, rest, List.tail_cons]

theorem Rest.missing (rest : store.Rest next []) {number : TypeNumber}
    (fromNext : next ≤ number) : ∀ shape, store.shapeAt number ≠ .ok shape := by
  intro shape isShape
  have inside := lt_of_shapeAt isShape
  have ended : store.shapes.length ≤ next := List.drop_eq_nil_iff.mp rest
  exact absurd inside (Nat.not_lt.mpr (Nat.le_trans ended fromNext))

end Rest

theorem forall_from_iff {property : TypeNumber → Prop} {next : TypeNumber} :
    (∀ number, next ≤ number → property number) ↔
      property next ∧ ∀ number, next + 1 ≤ number → property number := by
  constructor
  · intro all
    exact ⟨all next (Nat.le_refl _), fun number after => all number (Nat.le_of_succ_le after)⟩
  · rintro ⟨first, others⟩ number fromNext
    rcases Nat.eq_or_lt_of_le fromNext with rfl | after
    · exact first
    · exact others number after

theorem inOrder_of_not_struct {number : TypeNumber} {shape : Shape}
    (isShape : store.shapeAt number = .ok shape) (noStruct : shape.isStruct = false) :
    store.InOrder number := by
  intro name fields signature isStruct
  rw [isShape] at isStruct
  cases isStruct
  cases noStruct

theorem CompleteBefore.tagged {next : TypeNumber} {complete : List TypeNumber}
    (completes : store.CompleteBefore next complete) :
    store.CompleteBefore (next + 1) (next :: complete) := by
  intro number tag tagged
  rw [List.mem_cons, completes number tag tagged, Nat.lt_succ_iff_lt_or_eq, or_comm]

theorem CompleteBefore.untagged {next : TypeNumber} {complete : List TypeNumber}
    {shape : Shape} (completes : store.CompleteBefore next complete)
    (isShape : store.shapeAt next = .ok shape) (untagged : shape.tag? = none) :
    store.CompleteBefore (next + 1) complete := by
  intro number tag tagged
  rw [completes number tag tagged, Nat.lt_succ_iff_lt_or_eq]
  refine (or_iff_left ?_).symm
  rintro rfl
  obtain ⟨other, isOther, hasTag⟩ := tagged
  rw [isShape] at isOther
  cases isOther
  rw [untagged] at hasTag
  cases hasTag

theorem nothingComplete : store.CompleteBefore 0 [] := by
  intro number tag _
  exact iff_of_false List.not_mem_nil (Nat.not_lt_zero number)

theorem defineAll_untagged {next : TypeNumber} {complete : List TypeNumber}
    {shape : Shape} {later : List Shape} (untagged : shape.tag? = none) :
    store.defineAll next complete (shape :: later) =
      store.defineAll (next + 1) complete later := by
  cases shape with
  | struct _ _ _ => cases untagged
  | trait _ _ => cases untagged
  | basic _ => rfl
  | pointer _ _ => rfl
  | array _ _ => rfl
  | function _ => rfl
  | aliasOf _ _ => rfl

theorem Ordered.fields_exist (ordered : store.Ordered) {number : TypeNumber}
    {name : String} {fields : List Field} {signature : Signature}
    (isStruct : store.shapeAt number = .ok (.struct name fields signature)) :
    ∀ field ∈ fields, field.type < store.size :=
  List.forall_mem_map.mp (ordered.existing number _ isStruct)

/-- What is defined when the definitions succeed. -/
theorem Ordered.defineAll_sound (ordered : store.Ordered) {shapes : List Shape}
    {next : TypeNumber} {complete : List TypeNumber}
    {definitions : List C.StructDefinition} (rest : store.Rest next shapes)
    (completes : store.CompleteBefore next complete)
    (success : store.defineAll next complete shapes = .ok definitions) :
    List.Forall₂ store.Defined (shapes.filter (·.tag?.isSome)) definitions ∧
      ∀ number, next ≤ number → store.InOrder number := by
  induction shapes generalizing next complete definitions with
  | nil =>
      cases success
      refine ⟨.nil, ?_⟩
      intro number fromNext name fields signature isStruct
      exact absurd isStruct (rest.missing fromNext _)
  | cons shape later induction =>
      have isShape := rest.shapeAt
      rw [forall_from_iff]
      cases tagged : shape.tag? with
      | none =>
          rw [defineAll_untagged tagged] at success
          obtain ⟨related, inOrder⟩ := induction rest.tail
            (completes.untagged isShape tagged) success
          rw [List.filter_cons_of_neg (by rw [tagged]; exact Bool.false_ne_true)]
          exact ⟨related,
            inOrder_of_not_struct isShape (Shape.not_struct_of_untagged tagged), inOrder⟩
      | some tag =>
          rcases Shape.struct_or_trait tagged with ⟨fields, signature, rfl⟩ |
            ⟨prototypes, rfl⟩
          · obtain ⟨_, checked, success⟩ := Success.bind_iff.mp success
            obtain ⟨definition, defined, success⟩ := Success.bind_iff.mp success
            obtain ⟨others, othersDefined, success⟩ := Success.bind_iff.mp success
            obtain ⟨members, declared, same⟩ := Success.bind_iff.mp defined
            cases success
            cases same
            obtain ⟨related, inOrder⟩ := induction rest.tail completes.tagged othersDefined
            refine ⟨.cons (.struct declared) related, ?_, inOrder⟩
            rcases ordered.fieldsComplete_cases completes tag
              (ordered.fields_exist isShape) with ⟨_, fieldsInOrder⟩ |
                ⟨_, _, _, _, _, _, _, failure⟩
            · intro name otherFields otherSignature isStruct
              rw [isShape] at isStruct
              cases isStruct
              exact fieldsInOrder
            · rw [failure] at checked
              cases checked
          · obtain ⟨definition, defined, success⟩ := Success.bind_iff.mp success
            obtain ⟨others, othersDefined, success⟩ := Success.bind_iff.mp success
            obtain ⟨members, declared, same⟩ := Success.bind_iff.mp defined
            cases success
            cases same
            obtain ⟨related, inOrder⟩ := induction rest.tail completes.tagged othersDefined
            exact ⟨.cons (.trait declared) related, inOrder_of_not_struct isShape rfl,
              inOrder⟩

theorem Ordered.declareFields_total (ordered : store.Ordered) {fields : List Field}
    (inside : ∀ field ∈ fields, field.type < store.size)
    (spellable : ∀ field ∈ fields, store.Spellable field.type) :
    ∃ members, store.declareFields fields = .ok members :=
  Success.mapM_total fun field member =>
    ordered.declare_total (inside field member) (spellable field member) _

theorem FirstOutOfOrder.before {next : TypeNumber} {name tag : String}
    (first : store.FirstOutOfOrder (next + 1) name tag) (inOrder : store.InOrder next) :
    store.FirstOutOfOrder next name tag := by
  obtain ⟨struct, earlier, field, later, signature, after, isStruct, holdsLater,
    fieldsInOrder, structsInOrder⟩ := first
  refine ⟨struct, earlier, field, later, signature, Nat.le_of_succ_le after, isStruct,
    holdsLater, fieldsInOrder, ?_⟩
  intro other fromNext before
  rcases Nat.eq_or_lt_of_le fromNext with rfl | afterNext
  · exact inOrder
  · exact structsInOrder other afterNext before

theorem FirstOutOfOrder.not_all_inOrder {next : TypeNumber} {name tag : String}
    (first : store.FirstOutOfOrder next name tag) : ¬ ∀ number, store.InOrder number := by
  obtain ⟨struct, earlier, field, later, signature, _, isStruct, holdsLater, _⟩ := first
  intro inOrder
  exact inOrder struct _ _ _ isStruct field
    (List.mem_append_right _ List.mem_cons_self) tag holdsLater

/-- When everything can be spelled, the definitions fail only for the first
struct out of order. -/
theorem Ordered.defineAll_cases (ordered : store.Ordered) {shapes : List Shape}
    {next : TypeNumber} {complete : List TypeNumber} (rest : store.Rest next shapes)
    (completes : store.CompleteBefore next complete)
    (spellable : ∀ shape ∈ shapes, store.MembersSpellable shape) :
    (∃ definitions, store.defineAll next complete shapes = .ok definitions) ∨
      ∃ name tag, store.FirstOutOfOrder next name tag ∧
        store.defineAll next complete shapes = .error (.incomplete name tag) := by
  induction shapes generalizing next complete with
  | nil => exact .inl ⟨[], rfl⟩
  | cons shape later induction =>
      have isShape := rest.shapeAt
      obtain ⟨shapeSpellable, laterSpellable⟩ := List.forall_mem_cons.mp spellable
      cases tagged : shape.tag? with
      | none =>
          rw [defineAll_untagged tagged]
          rcases induction rest.tail (completes.untagged isShape tagged) laterSpellable with
            success | ⟨name, tag, first, failure⟩
          · exact .inl success
          · exact .inr ⟨name, tag, first.before (inOrder_of_not_struct isShape
              (Shape.not_struct_of_untagged tagged)), failure⟩
      | some tag =>
          have onwards : ∀ definition : C.StructDefinition, store.InOrder next →
              store.defineAll next complete (shape :: later) =
                (do return definition :: (← store.defineAll (next + 1) (next :: complete) later)) →
              (∃ definitions,
                store.defineAll next complete (shape :: later) = .ok definitions) ∨
              ∃ name tag, store.FirstOutOfOrder next name tag ∧
                store.defineAll next complete (shape :: later) =
                  .error (.incomplete name tag) := by
            intro definition inOrder unfolds
            rw [unfolds]
            rcases induction rest.tail completes.tagged laterSpellable with
              ⟨others, success⟩ | ⟨name, needs, first, failure⟩
            · rw [success]
              exact .inl ⟨_, rfl⟩
            · rw [failure]
              exact .inr ⟨name, needs, first.before inOrder, rfl⟩
          rcases Shape.struct_or_trait tagged with ⟨fields, signature, rfl⟩ |
            ⟨prototypes, rfl⟩
          · have inside := ordered.fields_exist isShape
            obtain ⟨members, declared⟩ := ordered.declareFields_total inside shapeSpellable
            rcases ordered.fieldsComplete_cases completes tag inside with
              ⟨checked, inOrder⟩ |
                ⟨earlier, field, others, needs, rfl, inOrderBefore, holdsLater, failure⟩
            · apply onwards ⟨tag, members⟩
              · intro name otherFields otherSignature isStruct
                rw [isShape] at isStruct
                cases isStruct
                exact inOrder
              · rw [defineAll, checked, defineStruct, declared]
                rfl
            · rw [defineAll, failure]
              exact .inr ⟨tag, needs, ⟨next, earlier, field, others, signature, Nat.le_refl _,
                isShape, holdsLater, inOrderBefore,
                fun other fromNext before => absurd before (Nat.not_lt.mpr fromNext)⟩, rfl⟩
          · obtain ⟨members, declared⟩ : ∃ members, prototypes.mapM (fun prototype =>
                store.declareFunctionPointer prototype.type prototype.name) = .ok members := by
              apply Success.mapM_total
              intro prototype member
              refine (ordered.declaresFunction_iff ?_ _).mpr (shapeSpellable prototype member)
              intro mentioned isMentioned
              exact ordered.existing next _ isShape mentioned
                (List.mem_flatMap.mpr ⟨prototype, member, isMentioned⟩)
            apply onwards ⟨tag, members⟩ (inOrder_of_not_struct isShape rfl)
            rw [defineAll, defineTrait, declared]
            rfl

theorem Defined.tag {shape : Shape} {definition : C.StructDefinition}
    (defined : store.Defined shape definition) : shape.tag? = some definition.tag := by
  cases defined with
  | struct _ => rfl
  | trait _ => rfl

theorem defined_tags {shapes : List Shape} {definitions : List C.StructDefinition}
    (related : List.Forall₂ store.Defined (shapes.filter (·.tag?.isSome)) definitions) :
    definitions.map (·.tag) = shapes.filterMap Shape.tag? := by
  have kept : shapes.filterMap Shape.tag? =
      (shapes.filter (·.tag?.isSome)).filterMap Shape.tag? := by
    rw [List.filterMap_filter]
    refine List.filterMap_congr fun shape _ => ?_
    cases shape.tag? with
    | none => rfl
    | some tag => rfl
  rw [kept]
  generalize shapes.filter (·.tag?.isSome) = tagged at related
  induction related with
  | nil => rfl
  | cons first _ induction =>
      rw [List.map_cons, List.filterMap_cons_some first.tag, induction]

theorem Ordered.defined_spellable (ordered : store.Ordered) {number : TypeNumber}
    {shape : Shape} {definition : C.StructDefinition}
    (isShape : store.shapeAt number = .ok shape)
    (defined : store.Defined shape definition) : store.MembersSpellable shape := by
  cases defined with
  | struct declared =>
      intro field member
      obtain ⟨_, success⟩ := Success.mapM_succeeds_iff.mp ⟨_, declared⟩ field member
      exact ordered.declare_spellable success
  | trait declared =>
      intro prototype member
      refine (ordered.declaresFunction_iff ?_ _).mp
        (Success.mapM_succeeds_iff.mp ⟨_, declared⟩ prototype member)
      intro mentioned isMentioned
      exact ordered.existing number _ isShape mentioned
        (List.mem_flatMap.mpr ⟨prototype, member, isMentioned⟩)

theorem membersSpellable_of_untagged {shape : Shape} (untagged : shape.tag? = none) :
    store.MembersSpellable shape := by
  cases shape with
  | struct _ _ _ => cases untagged
  | trait _ _ => cases untagged
  | basic _ => trivial
  | pointer _ _ => trivial
  | array _ _ => trivial
  | function _ => trivial
  | aliasOf _ _ => trivial

theorem Ordered.allDefined_spellable (ordered : store.Ordered)
    {definitions : List C.StructDefinition}
    (related : List.Forall₂ store.Defined (store.shapes.filter (·.tag?.isSome)) definitions) :
    ∀ shape ∈ store.shapes, store.MembersSpellable shape := by
  intro shape member
  cases tagged : shape.tag? with
  | none => exact membersSpellable_of_untagged tagged
  | some tag =>
      have kept : shape ∈ store.shapes.filter (·.tag?.isSome) :=
        List.mem_filter.mpr ⟨member, by rw [tagged]; rfl⟩
      obtain ⟨definition, _, defined⟩ := Success.related_of_mem related shape kept
      obtain ⟨number, found⟩ := List.mem_iff_getElem?.mp member
      exact ordered.defined_spellable (shapeAt_ok_iff.mpr found) defined

end TypeStore

namespace Program

variable {program : Program}

/-- Everything that a header writes out can be spelled. -/
structure HeaderSpellable (program : Program) : Prop where
  members : ∀ shape ∈ program.types.shapes, program.types.MembersSpellable shape
  prototypes : ∀ function ∈ program.compiled, program.types.SpellableFunction function.type

/-- A header is made of the definitions of all structs and traits, which then
are in order, and the heads of all compiled functions. -/
theorem Founded.header_sound (founded : program.Founded) {header : C.Header}
    (success : program.header = .ok header) :
    List.Forall₂ program.types.Defined
        (program.types.shapes.filter (·.tag?.isSome)) header.structs ∧
      (∀ number, program.types.InOrder number) ∧
      program.compiled.mapM program.declareCompiled = .ok header.prototypes := by
  obtain ⟨structs, defined, success⟩ := Success.bind_iff.mp success
  obtain ⟨prototypes, declared, same⟩ := Success.bind_iff.mp success
  cases same
  obtain ⟨related, inOrder⟩ := founded.ordered.defineAll_sound
    TypeStore.rest_zero TypeStore.nothingComplete defined
  exact ⟨related, fun number => inOrder number (Nat.zero_le _), declared⟩

/-- When everything can be spelled, only the order can be at fault. -/
theorem Founded.header_cases (founded : program.Founded)
    (spellable : program.HeaderSpellable) :
    (∃ header, program.header = .ok header) ∨
      ∃ struct needs, program.types.FirstOutOfOrder 0 struct needs ∧
        program.header = .error (.incomplete struct needs) := by
  obtain ⟨prototypes, declared⟩ :
      ∃ prototypes, program.compiled.mapM program.declareCompiled = .ok prototypes := by
    apply Success.mapM_total
    intro function member
    exact (founded.declareCompiled_iff member).mpr (spellable.prototypes function member)
  rcases founded.ordered.defineAll_cases TypeStore.rest_zero TypeStore.nothingComplete
    spellable.members with ⟨structs, defined⟩ | ⟨struct, needs, first, failure⟩
  · left
    exact ⟨_, Success.bind_iff.mpr ⟨structs, defined,
      Success.bind_iff.mpr ⟨prototypes, declared, rfl⟩⟩⟩
  · refine .inr ⟨struct, needs, first, ?_⟩
    rw [header, failure]
    rfl

/-- A program has a header exactly if everything in it can be spelled and all
structs come after what they hold.  The definitions then stand in the order of
the types.  If everything can be spelled but some struct is out of order, the
first such struct is reported, with what its first such field holds. -/
theorem header_exists_iff (name : String) (pointerSize : PointerSize)
    (operations : List Operation) :
    let program := history name pointerSize operations
    ((∃ header, program.header = .ok header) ↔
      program.HeaderSpellable ∧ ∀ number, program.types.InOrder number) ∧
    (∀ header, program.header = .ok header →
      header.structs.map (·.tag) = program.types.shapes.filterMap Shape.tag?) ∧
    (program.HeaderSpellable → (¬ ∀ number, program.types.InOrder number) →
      ∃ struct needs, program.types.FirstOutOfOrder 0 struct needs ∧
        program.header = .error (.incomplete struct needs)) := by
  intro program
  have founded : program.Founded := history_founded name pointerSize operations
  refine ⟨⟨?_, ?_⟩, ?_, ?_⟩
  · rintro ⟨header, success⟩
    obtain ⟨related, inOrder, declared⟩ := founded.header_sound success
    refine ⟨⟨founded.ordered.allDefined_spellable related, ?_⟩, inOrder⟩
    intro function member
    exact (founded.declareCompiled_iff member).mp
      (Success.mapM_succeeds_iff.mp ⟨_, declared⟩ function member)
  · rintro ⟨spellable, inOrder⟩
    rcases founded.header_cases spellable with success | ⟨_, _, first, _⟩
    · exact success
    · exact absurd inOrder first.not_all_inOrder
  · intro header success
    exact TypeStore.defined_tags (founded.header_sound success).1
  · intro spellable outOfOrder
    rcases founded.header_cases spellable with ⟨header, success⟩ | reported
    · exact absurd (founded.header_sound success).2.1 outOfOrder
    · exact reported

/-- A struct that is announced first and then holds a later one. -/
example : (history "pair" .eight [.types (.announce "Outer"), .types (.announce "Inner"),
    .types (.extend 0 ⟨"inner", 1⟩)]).header = .error (.incomplete "Outer" "Inner") := by
  cbv

end Program

end CBackend
