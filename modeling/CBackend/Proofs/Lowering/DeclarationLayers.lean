import CBackend.Proofs.Success

/-!
# Layers of a declaration

A successful declaration comes about layer by layer: each type wraps the
declarator once more and hands it on to the type it mentions.  The principle
below is the only view of declaring that later proofs need.  A property of
declarations holds if every layer passes it on.
-/

namespace CBackend.TypeStore

open C (Declarator Declaration)

/-- A property of declaring something of a type. -/
abbrev DeclaredAs := TypeNumber → Declarator → Declaration → Prop

/-- Each field is declared under its name. -/
def FieldsDeclared (property : DeclaredAs) :
    List Field → List Declaration → Prop :=
  List.Forall₂ fun field declaration =>
    property field.type (.name field.name) declaration

/-- How the declaration of a function comes about, where types are declared
with some property. -/
inductive FunctionDeclared (store : TypeStore) (property : DeclaredAs) :
    FunctionType → Declarator → Declaration → Prop where
  | void {fields : List Field} {declared : Declarator} {params : List Declaration}
      (paramsDeclared : FieldsDeclared property fields params) :
      FunctionDeclared store property ⟨fields, []⟩ declared
        ⟨.void, .function declared params⟩
  | single {fields : List Field} {result : Field} {declared : Declarator}
      {params : List Declaration} {declaration : Declaration}
      (paramsDeclared : FieldsDeclared property fields params)
      (noArray : store.isArray result.type = .ok false)
      (returned : property result.type (.function declared params) declaration) :
      FunctionDeclared store property ⟨fields, [result]⟩ declared declaration
  | several {fields : List Field} {first second : Field} {others : List Field}
      {declared : Declarator} {params members : List Declaration}
      (paramsDeclared : FieldsDeclared property fields params)
      (membersDeclared : FieldsDeclared property (first :: second :: others) members) :
      FunctionDeclared store property ⟨fields, first :: second :: others⟩ declared
        ⟨.anonymous members, .function declared params⟩

theorem FunctionDeclared.imp {store : TypeStore} {property weaker : DeclaredAs}
    {type : FunctionType} {declared : Declarator} {declaration : Declaration}
    (implies : ∀ {number declared declaration},
      property number declared declaration → weaker number declared declaration)
    (function : store.FunctionDeclared property type declared declaration) :
    store.FunctionDeclared weaker type declared declaration := by
  cases function with
  | void params => exact .void (params.imp fun _ _ => implies)
  | single params noArray returned =>
      exact .single (params.imp fun _ _ => implies) noArray (implies returned)
  | several params members =>
      exact .several (params.imp fun _ _ => implies) (members.imp fun _ _ => implies)

/-- The lift of a query of the store has succeeded when the query has. -/
theorem lift_ok_iff {query : Except StoreError α} {value : α} :
    (liftM query : Except LoweringError α) = .ok value ↔ query = .ok value := by
  cases query with
  | error cause => exact ⟨nofun, nofun⟩
  | ok found =>
      constructor
      · intro success
        cases success
        rfl
      · intro success
        cases success
        rfl

theorem declareFunctionBy_ok_iff {store : TypeStore} {declare : Declarer}
    {type : FunctionType} {declared : Declarator} {declaration : Declaration} :
    store.declareFunctionBy declare type declared = .ok declaration ↔
      store.FunctionDeclared (fun number declared declaration =>
        declare number declared = .ok declaration) type declared declaration := by
  obtain ⟨fields, results⟩ := type
  unfold declareFunctionBy
  rw [Success.bind_iff]
  constructor
  · rintro ⟨params, paramsSuccess, success⟩
    have paramsDeclared := Success.mapM_iff.mp paramsSuccess
    rcases results with _ | ⟨result, _ | ⟨second, others⟩⟩
    · cases success
      exact .void paramsDeclared
    · obtain ⟨array, arraySuccess, success⟩ := Success.bind_iff.mp success
      cases array with
      | true => cases success
      | false => exact .single paramsDeclared (lift_ok_iff.mp arraySuccess) success
    · obtain ⟨members, membersSuccess, success⟩ := Success.bind_iff.mp success
      cases success
      exact .several paramsDeclared (Success.mapM_iff.mp membersSuccess)
  · intro function
    cases function with
    | void params => exact ⟨_, Success.mapM_iff.mpr params, rfl⟩
    | single params noArray returned =>
        refine ⟨_, Success.mapM_iff.mpr params, ?_⟩
        exact Success.bind_iff.mpr ⟨false, lift_ok_iff.mpr noArray, returned⟩
    | several params members =>
        refine ⟨_, Success.mapM_iff.mpr params, ?_⟩
        exact Success.bind_iff.mpr ⟨_, Success.mapM_iff.mpr members, rfl⟩

/-- A pointer to an array is grouped, so that the dimension does not bind to
the declared name. -/
def pointerTo (array : Bool) (declared : Declarator) : Declarator :=
  if array then .group (.pointer declared) else .pointer declared

/-- How a type of some shape wraps a declarator, where the types it mentions
are declared with some property. -/
inductive Layer (store : TypeStore) (property : DeclaredAs) :
    Shape → Declarator → Declaration → Prop where
  | basic {code : BasicCode} {name : String} {declared : Declarator}
      (named : code.cName? = some name) :
      Layer store property (.basic code) declared ⟨.named name, declared⟩
  | struct {name : String} {fields : List Field} {signature : Signature}
      {declared : Declarator} :
      Layer store property (.struct name fields signature) declared
        ⟨.tagged name, declared⟩
  | trait {name : String} {prototypes : List Prototype} {declared : Declarator} :
      Layer store property (.trait name prototypes) declared ⟨.tagged name, declared⟩
  | function {type : FunctionType} {declared : Declarator} {declaration : Declaration}
      (inner : store.FunctionDeclared property type (.group (.pointer declared))
        declaration) :
      Layer store property (.function type) declared declaration
  | array {element : TypeNumber} {capacity : Nat} {declared : Declarator}
      {declaration : Declaration}
      (inner : property element (.array declared capacity) declaration) :
      Layer store property (.array element capacity) declared declaration
  | pointer {mode : PointerMode} {pointee : TypeNumber} {array : Bool}
      {declared : Declarator} {declaration : Declaration}
      (isArray : store.isArray pointee = .ok array)
      (inner : property pointee (pointerTo array declared) declaration) :
      Layer store property (.pointer mode pointee) declared declaration
  | aliasOf {name : String} {target : TypeNumber} {declared : Declarator}
      {declaration : Declaration} (inner : property target declared declaration) :
      Layer store property (.aliasOf name target) declared declaration

theorem Layer.imp {store : TypeStore} {property weaker : DeclaredAs} {shape : Shape}
    {declared : Declarator} {declaration : Declaration}
    (implies : ∀ {number declared declaration},
      property number declared declaration → weaker number declared declaration)
    (layer : store.Layer property shape declared declaration) :
    store.Layer weaker shape declared declaration := by
  cases layer with
  | basic named => exact .basic named
  | struct => exact .struct
  | trait => exact .trait
  | function inner => exact .function (inner.imp implies)
  | array inner => exact .array (implies inner)
  | pointer isArray inner => exact .pointer isArray (implies inner)
  | aliasOf inner => exact .aliasOf (implies inner)

section Shapes

variable {store : TypeStore} {property : DeclaredAs} {declared : Declarator}
  {declaration : Declaration}

theorem Layer.congr {other : DeclaredAs} {shape : Shape}
    (same : ∀ {number declared declaration},
      property number declared declaration ↔ other number declared declaration) :
    store.Layer property shape declared declaration ↔
      store.Layer other shape declared declaration :=
  ⟨fun layer => layer.imp same.mp, fun layer => layer.imp same.mpr⟩

theorem Layer.function_iff {type : FunctionType} :
    store.Layer property (.function type) declared declaration ↔
      store.FunctionDeclared property type (.group (.pointer declared)) declaration := by
  constructor
  · intro layer
    cases layer with
    | function inner => exact inner
  · exact .function

theorem Layer.array_iff {element : TypeNumber} {capacity : Nat} :
    store.Layer property (.array element capacity) declared declaration ↔
      property element (.array declared capacity) declaration := by
  constructor
  · intro layer
    cases layer with
    | array inner => exact inner
  · exact .array

theorem Layer.aliasOf_iff {name : String} {target : TypeNumber} :
    store.Layer property (.aliasOf name target) declared declaration ↔
      property target declared declaration := by
  constructor
  · intro layer
    cases layer with
    | aliasOf inner => exact inner
  · exact .aliasOf

/-- A basic type is declared by its name, if it has one. -/
theorem declareBasic_ok_iff {code : BasicCode} :
    (match code.cName? with
      | some name => pure ⟨.named name, declared⟩
      | none => throw (.unnamed code) : Except LoweringError Declaration) =
        .ok declaration ↔
      store.Layer property (.basic code) declared declaration := by
  constructor
  · intro success
    split at success
    · rename_i named
      cases success
      exact .basic named
    · cases success
  · intro layer
    cases layer with
    | basic named =>
        rw [named]
        rfl

/-- A pointer is declared by its pointee, which may be an array. -/
theorem declarePointer_ok_iff {declare : Declarer} {mode : PointerMode}
    {pointee : TypeNumber} :
    (do
      if ← store.isArray pointee then declare pointee (.group (.pointer declared))
      else declare pointee (.pointer declared) : Except LoweringError Declaration) =
        .ok declaration ↔
      store.Layer (fun number declared declaration =>
        declare number declared = .ok declaration)
        (.pointer mode pointee) declared declaration := by
  rw [Success.bind_iff]
  constructor
  · rintro ⟨array, isArray, success⟩
    refine .pointer (lift_ok_iff.mp isArray) ?_
    cases array with
    | true => exact success
    | false => exact success
  · intro layer
    cases layer with
    | @pointer _ _ array _ _ isArray inner =>
        refine ⟨array, lift_ok_iff.mpr isArray, ?_⟩
        cases array with
        | true => exact inner
        | false => exact inner

/-- Only types with smaller numbers are declared inside of a type. -/
def declareBelow (store : TypeStore) (number : TypeNumber) : Declarer :=
  fun below declared =>
    if _ : below < number then store.declare below declared
    else .error (.store (.missing below))

theorem declareBelow_ok_iff {number below : TypeNumber} :
    store.declareBelow number below declared = .ok declaration ↔
      below < number ∧ store.declare below declared = .ok declaration := by
  unfold declareBelow
  split
  · rename_i smaller
    exact (and_iff_right smaller).symm
  · rename_i larger
    exact ⟨nofun, fun success => absurd success.1 larger⟩

/-- A type is declared exactly if its layer is and all types below it are. -/
theorem declare_ok_iff {number : TypeNumber} :
    store.declare number declared = .ok declaration ↔
      ∃ shape, store.shapeAt number = .ok shape ∧
        store.Layer (fun below declared declaration =>
          below < number ∧ store.declare below declared = .ok declaration)
          shape declared declaration := by
  rw [declare, Success.bind_iff]
  refine exists_congr fun shape => and_congr lift_ok_iff ?_
  have inside : store.Layer (fun below declared declaration =>
      store.declareBelow number below declared = .ok declaration)
      shape declared declaration ↔ _ := Layer.congr declareBelow_ok_iff
  refine Iff.trans ?_ inside
  cases shape with
  | basic code => exact declareBasic_ok_iff
  | struct name fields signature =>
      constructor
      · intro success
        cases success
        exact .struct
      · intro layer
        cases layer
        rfl
  | trait name prototypes =>
      constructor
      · intro success
        cases success
        exact .trait
      · intro layer
        cases layer
        rfl
  | function type => exact declareFunctionBy_ok_iff.trans Layer.function_iff.symm
  | array element capacity =>
      rw [Layer.array_iff]
      exact Iff.rfl
  | pointer mode pointee =>
      rw [← declarePointer_ok_iff]
      exact Iff.rfl
  | aliasOf name target =>
      rw [Layer.aliasOf_iff]
      exact Iff.rfl

end Shapes

/-- What every layer passes on holds of all declarations.  The induction is on
the number of the type, which falls at every mention. -/
theorem declare_induction {store : TypeStore} {property : DeclaredAs}
    (passes : ∀ {number shape declared declaration}, store.shapeAt number = .ok shape →
      store.Layer (fun below declared declaration =>
        below < number ∧ property below declared declaration)
        shape declared declaration → property number declared declaration)
    {number : TypeNumber} {declared : Declarator} {declaration : Declaration}
    (success : store.declare number declared = .ok declaration) :
    property number declared declaration := by
  induction number using Nat.strongRecOn generalizing declared declaration with
  | ind number induction =>
      obtain ⟨shape, isShape, layer⟩ := declare_ok_iff.mp success
      refine passes isShape (layer.imp ?_)
      intro below declared declaration success
      exact ⟨success.1, induction below success.1 success.2⟩

/-- The same for functions, whose parameters and results are declared. -/
theorem declareFunction_declared {store : TypeStore} {property : DeclaredAs}
    (holds : ∀ {number declared declaration},
      store.declare number declared = .ok declaration →
        property number declared declaration)
    {type : FunctionType} {declared : Declarator} {declaration : Declaration}
    (success : store.declareFunction type declared = .ok declaration) :
    store.FunctionDeclared property type declared declaration :=
  (declareFunctionBy_ok_iff.mp success).imp holds

end CBackend.TypeStore
