import CBackend.Lowering.Interface
import CBackend.Proofs.Lowering.DeclarationLayers
import CBackend.Proofs.Lowering.ParameterNames
import CBackend.Proofs.Program.History

/-!
# Which types can be spelled

C has no name for some basic codes, and no function of C returns an array.
A type can be declared exactly if neither is met on the way through pointers,
arrays, aliases and functions.  Structs and traits are spelled by their tags,
so nothing behind them matters, nor does the declarator.
-/

namespace CBackend

theorem FunctionType.forall_mentions {property : TypeNumber → Prop} {type : FunctionType} :
    (∀ mentioned ∈ type.mentions, property mentioned) ↔
      (∀ param ∈ type.params, property param.type) ∧
        ∀ result ∈ type.results, property result.type := by
  rw [FunctionType.mentions, List.map_append, List.forall_mem_append, List.forall_mem_map,
    List.forall_mem_map]

/-- The types that are written out where a type of this shape is. -/
def Shape.spelled : Shape → List TypeNumber
  | .pointer _ pointee => [pointee]
  | .array element _ => [element]
  | .function type => type.mentions
  | .aliasOf _ target => [target]
  | .basic _ | .struct .. | .trait .. => []

theorem Shape.spelled_subset_mentions (shape : Shape) :
    shape.spelled ⊆ shape.mentions := by
  cases shape with
  | pointer _ _ => exact List.Subset.refl _
  | array _ _ => exact List.Subset.refl _
  | function _ => exact List.Subset.refl _
  | aliasOf _ _ => exact List.Subset.refl _
  | basic _ => exact List.nil_subset _
  | struct _ _ _ => exact List.nil_subset _
  | trait _ _ => exact List.nil_subset _

namespace TypeStore

open Relation (ReflTransGen)
open C (Declarator Declaration)

/-- One type is an alias of the other. -/
def Aliases (store : TypeStore) (number target : TypeNumber) : Prop :=
  ∃ name, store.shapeAt number = .ok (.aliasOf name target)

/-- An array stands behind all aliases. -/
def ResolvesToArray (store : TypeStore) (number : TypeNumber) : Prop :=
  ∃ target element capacity, ReflTransGen store.Aliases number target ∧
    store.shapeAt target = .ok (.array element capacity)

/-- A function with an array as its single result. -/
def ReturnsArray (store : TypeStore) (type : FunctionType) : Prop :=
  ∃ result, type.results = [result] ∧ store.ResolvesToArray result.type

/-- C has no form for a type of this shape, whatever the types it mentions. -/
def HasNoForm (store : TypeStore) : Shape → Prop
  | .basic code => code.cName? = none
  | .function type => store.ReturnsArray type
  | _ => False

/-- One type is written out where the other is. -/
def Spells (store : TypeStore) (outer inner : TypeNumber) : Prop :=
  ∃ shape, store.shapeAt outer = .ok shape ∧ inner ∈ shape.spelled

def Spellable (store : TypeStore) (number : TypeNumber) : Prop :=
  ∀ inner, ReflTransGen store.Spells number inner →
    ∀ shape, store.shapeAt inner = .ok shape → ¬ store.HasNoForm shape

def SpellableFunction (store : TypeStore) (type : FunctionType) : Prop :=
  ¬ store.ReturnsArray type ∧ ∀ mentioned ∈ type.mentions, store.Spellable mentioned

variable {store : TypeStore}

theorem resolvesToArray_alias {number target : TypeNumber} {name : String}
    (isShape : store.shapeAt number = .ok (.aliasOf name target)) :
    store.ResolvesToArray number ↔ store.ResolvesToArray target := by
  constructor
  · rintro ⟨last, element, capacity, chain, isArray⟩
    rcases ReflTransGen.cases_head chain with rfl | ⟨next, ⟨_, isAlias⟩, chain⟩
    · rw [isShape] at isArray
      cases isArray
    · rw [isShape] at isAlias
      cases isAlias
      exact ⟨last, element, capacity, chain, isArray⟩
  · rintro ⟨last, element, capacity, chain, isArray⟩
    exact ⟨last, element, capacity, .head ⟨name, isShape⟩ chain, isArray⟩

theorem resolvesToArray_of_not_alias {number : TypeNumber} {shape : Shape}
    (isShape : store.shapeAt number = .ok shape) (noAlias : shape.isAlias = false) :
    store.ResolvesToArray number ↔ shape.isArray = true := by
  constructor
  · rintro ⟨last, element, capacity, chain, isArray⟩
    rcases ReflTransGen.cases_head chain with rfl | ⟨next, ⟨_, isAlias⟩, _⟩
    · rw [isShape] at isArray
      cases isArray
      rfl
    · rw [isShape] at isAlias
      cases isAlias
      cases noAlias
  · intro array
    cases shape with
    | array element capacity => exact ⟨number, element, capacity, .refl, isShape⟩
    | basic _ => cases array
    | pointer _ _ => cases array
    | struct _ _ _ => cases array
    | function _ => cases array
    | trait _ _ => cases array
    | aliasOf _ _ => cases array

theorem Ordered.isArray_ok_iff (ordered : store.Ordered) {number : TypeNumber}
    (inside : number < store.size) {array : Bool} :
    store.isArray number = .ok array ↔ (array = true ↔ store.ResolvesToArray number) := by
  induction number using Nat.strongRecOn with
  | ind number induction =>
      obtain ⟨shape, isShape⟩ := shapeAt_of_lt inside
      cases isAlias : shape.isAlias with
      | false =>
          rw [isArray_of_not_alias isShape isAlias,
            resolvesToArray_of_not_alias isShape isAlias, ← Bool.eq_iff_iff]
          exact ⟨fun same => (Except.ok.inj same).symm, fun same => same ▸ rfl⟩
      | true =>
          cases shape with
          | aliasOf name target =>
              have below := ordered.downward number _ isShape rfl target List.mem_cons_self
              rw [isArray_alias isShape below, resolvesToArray_alias isShape]
              exact induction target below (Nat.lt_trans below inside)
          | basic _ => cases isAlias
          | pointer _ _ => cases isAlias
          | array _ _ => cases isAlias
          | struct _ _ _ => cases isAlias
          | function _ => cases isAlias
          | trait _ _ => cases isAlias

theorem Ordered.not_isArray_iff (ordered : store.Ordered) {number : TypeNumber}
    (inside : number < store.size) :
    store.isArray number = .ok false ↔ ¬ store.ResolvesToArray number := by
  rw [ordered.isArray_ok_iff inside]
  simp

theorem spellable_iff {number : TypeNumber} {shape : Shape}
    (isShape : store.shapeAt number = .ok shape) :
    store.Spellable number ↔
      ¬ store.HasNoForm shape ∧ ∀ inner ∈ shape.spelled, store.Spellable inner := by
  constructor
  · intro spellable
    refine ⟨spellable number .refl shape isShape, ?_⟩
    intro inner member last walk
    exact spellable last (.head ⟨shape, isShape, member⟩ walk)
  · rintro ⟨form, below⟩ last walk found isFound
    rcases ReflTransGen.cases_head walk with rfl | ⟨inner, ⟨other, isOther, member⟩, walk⟩
    · rw [isShape] at isFound
      cases isFound
      exact form
    · rw [isShape] at isOther
      cases isOther
      exact below inner member last walk found isFound

/-- Whatever is declared can be spelled. -/
def Spelled (store : TypeStore) : DeclaredAs := fun number _ _ => store.Spellable number

theorem FieldsDeclared.spellable {fields : List Field} {declarations : List Declaration}
    (declared : FieldsDeclared store.Spelled fields declarations) :
    ∀ field ∈ fields, store.Spellable field.type := by
  induction declared with
  | nil => exact nofun
  | cons first _ induction => exact List.forall_mem_cons.mpr ⟨first, induction⟩

theorem FunctionDeclared.spellable (ordered : store.Ordered) {type : FunctionType}
    (inside : ∀ mentioned ∈ type.mentions, mentioned < store.size)
    {declared : Declarator} {declaration : Declaration}
    (function : store.FunctionDeclared store.Spelled type declared declaration) :
    store.SpellableFunction type := by
  have resultsInside := (FunctionType.forall_mentions.mp inside).2
  cases function with
  | void params =>
      refine ⟨nofun, FunctionType.forall_mentions.mpr ⟨params.spellable, nofun⟩⟩
  | single params noArray returned =>
      have resultInside := resultsInside _ List.mem_cons_self
      constructor
      · rintro ⟨result, same, array⟩
        cases same
        exact (ordered.not_isArray_iff resultInside).mp noArray array
      · refine FunctionType.forall_mentions.mpr ⟨params.spellable, ?_⟩
        intro result member
        rw [List.mem_singleton.mp member]
        exact returned
  | several params members =>
      exact ⟨nofun, FunctionType.forall_mentions.mpr ⟨params.spellable, members.spellable⟩⟩

theorem FieldsDeclared.total {property : DeclaredAs} {fields : List Field}
    (each : ∀ field ∈ fields, ∀ declared,
      ∃ declaration, property field.type declared declaration) :
    ∃ declarations, FieldsDeclared property fields declarations := by
  induction fields with
  | nil => exact ⟨[], .nil⟩
  | cons field fields induction =>
      obtain ⟨eachFirst, eachLater⟩ := List.forall_mem_cons.mp each
      obtain ⟨first, firstDeclared⟩ := eachFirst (.name field.name)
      obtain ⟨later, laterDeclared⟩ := induction eachLater
      exact ⟨first :: later, .cons firstDeclared laterDeclared⟩

/-- A function can be declared around any declarator if its parameters and
results can. -/
theorem FunctionDeclared.total (ordered : store.Ordered) {type : FunctionType}
    (inside : ∀ mentioned ∈ type.mentions, mentioned < store.size)
    (form : ¬ store.ReturnsArray type) {property : DeclaredAs}
    (each : ∀ mentioned ∈ type.mentions, ∀ declared,
      ∃ declaration, property mentioned declared declaration) (declared : Declarator) :
    ∃ declaration, store.FunctionDeclared property type declared declaration := by
  obtain ⟨eachParam, eachResult⟩ := FunctionType.forall_mentions.mp each
  obtain ⟨params, paramsDeclared⟩ := FieldsDeclared.total eachParam
  obtain ⟨fields, results⟩ := type
  rcases results with _ | ⟨result, _ | ⟨second, others⟩⟩
  · exact ⟨_, .void paramsDeclared⟩
  · have resultInside := (FunctionType.forall_mentions.mp inside).2 result List.mem_cons_self
    have noArray := (ordered.not_isArray_iff resultInside).mpr
      fun array => form ⟨result, rfl, array⟩
    obtain ⟨declaration, returned⟩ := eachResult result List.mem_cons_self
      (.function declared params)
    exact ⟨declaration, .single paramsDeclared noArray returned⟩
  · obtain ⟨members, membersDeclared⟩ := FieldsDeclared.total eachResult
    exact ⟨_, .several paramsDeclared membersDeclared⟩

theorem Ordered.declare_spellable (ordered : store.Ordered) {number : TypeNumber}
    {declared : Declarator} {declaration : Declaration}
    (success : store.declare number declared = .ok declaration) :
    store.Spelled number declared declaration := by
  refine declare_induction ?_ success
  intro number shape declared declaration isShape layer
  refine (spellable_iff isShape).mpr ?_
  cases layer with
  | basic named =>
      refine ⟨?_, nofun⟩
      intro unnamed
      rw [HasNoForm, named] at unnamed
      cases unnamed
  | struct => exact ⟨id, nofun⟩
  | trait => exact ⟨id, nofun⟩
  | function inner =>
      exact (inner.imp And.right).spellable ordered (ordered.existing number _ isShape)
  | array inner => exact ⟨id, List.forall_mem_singleton.mpr inner.2⟩
  | pointer _ inner => exact ⟨id, List.forall_mem_singleton.mpr inner.2⟩
  | aliasOf inner => exact ⟨id, List.forall_mem_singleton.mpr inner.2⟩

theorem Ordered.spelled_below (ordered : store.Ordered) {number inner : TypeNumber}
    {shape : Shape} (isShape : store.shapeAt number = .ok shape)
    (member : inner ∈ shape.spelled) : inner < number := by
  refine ordered.downward number shape isShape ?_ inner
    (shape.spelled_subset_mentions member)
  cases shape with
  | struct _ _ _ => cases member
  | basic _ => rfl
  | pointer _ _ => rfl
  | array _ _ => rfl
  | function _ => rfl
  | trait _ _ => rfl
  | aliasOf _ _ => rfl

/-- A type with a form in C has a layer around any declarator if the types
written out in it can be declared. -/
theorem Layer.total (ordered : store.Ordered) {number : TypeNumber} {shape : Shape}
    (isShape : store.shapeAt number = .ok shape) (form : ¬ store.HasNoForm shape)
    {property : DeclaredAs}
    (each : ∀ inner ∈ shape.spelled, ∀ declared,
      ∃ declaration, property inner declared declaration) (declared : Declarator) :
    ∃ declaration, store.Layer property shape declared declaration := by
  have inside := ordered.existing number shape isShape
  cases shape with
  | basic code =>
      obtain ⟨name, named⟩ := Option.ne_none_iff_exists'.mp form
      exact ⟨_, .basic named⟩
  | struct name fields signature => exact ⟨_, .struct⟩
  | trait name prototypes => exact ⟨_, .trait⟩
  | function type =>
      obtain ⟨declaration, inner⟩ := FunctionDeclared.total ordered inside form each
        (.group (.pointer declared))
      exact ⟨declaration, .function inner⟩
  | array element capacity =>
      obtain ⟨declaration, inner⟩ := each element List.mem_cons_self (.array declared capacity)
      exact ⟨declaration, .array inner⟩
  | pointer mode pointee =>
      have pointeeInside := inside pointee List.mem_cons_self
      obtain ⟨array, isArray⟩ : ∃ array, store.isArray pointee = .ok array := by
        by_cases resolves : store.ResolvesToArray pointee
        · exact ⟨true, (ordered.isArray_ok_iff pointeeInside).mpr (iff_of_true rfl resolves)⟩
        · exact ⟨false, (ordered.not_isArray_iff pointeeInside).mpr resolves⟩
      obtain ⟨declaration, inner⟩ := each pointee List.mem_cons_self
        (pointerTo array declared)
      exact ⟨declaration, .pointer isArray inner⟩
  | aliasOf name target =>
      obtain ⟨declaration, inner⟩ := each target List.mem_cons_self declared
      exact ⟨declaration, .aliasOf inner⟩

theorem Ordered.declare_total (ordered : store.Ordered) {number : TypeNumber}
    (inside : number < store.size) (spellable : store.Spellable number)
    (declared : Declarator) :
    ∃ declaration, store.declare number declared = .ok declaration := by
  induction number using Nat.strongRecOn generalizing declared with
  | ind number induction =>
      obtain ⟨shape, isShape⟩ := shapeAt_of_lt inside
      obtain ⟨form, spelled⟩ := (spellable_iff isShape).mp spellable
      have each : ∀ inner ∈ shape.spelled, ∀ declared, ∃ declaration,
          inner < number ∧ store.declare inner declared = .ok declaration := by
        intro inner member declared
        have below := ordered.spelled_below isShape member
        obtain ⟨declaration, success⟩ := induction inner below (Nat.lt_trans below inside)
          (spelled inner member) declared
        exact ⟨declaration, below, success⟩
      obtain ⟨declaration, layer⟩ := Layer.total ordered isShape form each declared
      exact ⟨declaration, declare_ok_iff.mpr ⟨shape, isShape, layer⟩⟩

/-- Around any declarator, a type is declared exactly if it can be spelled. -/
theorem Ordered.declares_iff (ordered : store.Ordered) {number : TypeNumber}
    (inside : number < store.size) (declared : Declarator) :
    (∃ declaration, store.declare number declared = .ok declaration) ↔
      store.Spellable number :=
  ⟨fun ⟨_, success⟩ => ordered.declare_spellable success,
    fun spellable => ordered.declare_total inside spellable declared⟩

theorem Ordered.declaresFunction_iff (ordered : store.Ordered) {type : FunctionType}
    (inside : ∀ mentioned ∈ type.mentions, mentioned < store.size)
    (declared : Declarator) :
    (∃ declaration, store.declareFunction type declared = .ok declaration) ↔
      store.SpellableFunction type := by
  constructor
  · rintro ⟨declaration, success⟩
    exact (declareFunction_declared ordered.declare_spellable success).spellable ordered
      inside
  · rintro ⟨form, spellable⟩
    obtain ⟨declaration, function⟩ := FunctionDeclared.total ordered inside form
      (fun mentioned member => ordered.declare_total (inside mentioned member)
        (spellable mentioned member)) declared
    exact ⟨declaration, declareFunctionBy_ok_iff.mpr function⟩

end TypeStore

namespace Program

variable {program : Program}

theorem definitionType_mentions (type : FunctionType) :
    (program.definitionType type).mentions = type.mentions := by
  rw [FunctionType.mentions, FunctionType.mentions, List.map_append, List.map_append,
    definitionType, Parameters.forDefinition_types]

theorem mem_compiled_iff {function : BodiedFunction} :
    function ∈ program.compiled ↔ .compiled function ∈ program.callees := by
  rw [compiled, List.mem_filterMap]
  constructor
  · rintro ⟨callee, member, isCompiled⟩
    cases callee with
    | compiled other =>
        cases isCompiled
        exact member
    | native _ => cases isCompiled
    | inlined _ => cases isCompiled
  · intro member
    exact ⟨_, member, rfl⟩

/-- The head of a compiled function is spelled exactly if its type is, since
new names for parameters change no types. -/
theorem Founded.declareCompiled_iff (founded : program.Founded) {function : BodiedFunction}
    (member : function ∈ program.compiled) :
    (∃ head, program.declareCompiled function = .ok head) ↔
      program.types.SpellableFunction function.type := by
  have inside := founded.typeExists (mem_compiled_iff.mp member)
  rw [declareCompiled, founded.ordered.declaresFunction_iff ?_, TypeStore.SpellableFunction,
    definitionType_mentions]
  · rfl
  · rw [definitionType_mentions]
    exact inside

end Program

end CBackend
