import CBackend.Proofs.Lowering.Emission

/-!
# What declarations declare

Declaring a type wraps the declarator it is given in pointers, dimensions
and parameter lists and never touches what is inside.  So a declaration
declares the name it was made for, and a function definition has the
parameters it was made with, whatever the types are.
-/

namespace CBackend

namespace C.Declarator

/-- The outer declarator is the inner one with layers around it. -/
inductive Wraps (inner : Declarator) : Declarator → Prop where
  | refl : Wraps inner inner
  | pointer {outer : Declarator} : Wraps inner outer → Wraps inner (.pointer outer)
  | group {outer : Declarator} : Wraps inner outer → Wraps inner (.group outer)
  | array {outer : Declarator} {dimension : Nat} :
      Wraps inner outer → Wraps inner (.array outer dimension)
  | function {outer : Declarator} {params : List Declaration} :
      Wraps inner outer → Wraps inner (.function outer params)

namespace Wraps

theorem trans {first second third : Declarator}
    (inside : Wraps first second) (outside : Wraps second third) :
    Wraps first third := by
  induction outside with
  | refl => exact inside
  | pointer _ induction => exact .pointer induction
  | group _ induction => exact .group induction
  | array _ induction => exact .array induction
  | function _ induction => exact .function induction

theorem declared_eq {inner outer : Declarator} (wraps : Wraps inner outer) :
    outer.declared = inner.declared := by
  induction wraps with
  | refl => rfl
  | pointer _ induction => exact induction
  | group _ induction => exact induction
  | array _ induction => exact induction
  | function _ induction => exact induction

end Wraps

/-- The parameter list that stands directly after the declared name. -/
def parameters : Declarator → List Declaration
  | .name _ => []
  | .function (.name _) params => params
  | .pointer inner | .group inner | .array inner _ | .function inner _ =>
    inner.parameters

/-- Layers around a function leave its parameters alone. -/
theorem Wraps.parameters_eq {name : String} {params : List Declaration}
    {outer : Declarator} (wraps : Wraps (.function (.name name) params) outer) :
    outer.parameters = params := by
  induction wraps with
  | refl => rfl
  | pointer _ induction => exact induction
  | group _ induction => exact induction
  | array _ induction => exact induction
  | @function outer _ inside induction =>
      cases inside with
      | refl => exact induction
      | pointer _ => exact induction
      | group _ => exact induction
      | array _ => exact induction
      | function _ => exact induction

end C.Declarator

namespace TypeStore

open C (Declarator Declaration)
open C.Declarator (Wraps)

theorem declareFunctionBy_wraps {store : TypeStore} {declare : Declarer}
    {type : FunctionType} {declared : Declarator} {declaration : Declaration}
    (wraps : ∀ {number declared declaration},
      declare number declared = .ok declaration →
        Wraps declared declaration.declarator)
    (success : store.declareFunctionBy declare type declared = .ok declaration) :
    ∃ params, declareFieldsBy declare type.params = .ok params ∧
      Wraps (.function declared params) declaration.declarator := by
  obtain ⟨params, paramsSuccess, success⟩ := Success.bind_iff.mp success
  refine ⟨params, paramsSuccess, ?_⟩
  rcases results : type.results with _ | ⟨single, _ | ⟨second, others⟩⟩ <;>
    simp only [results] at success
  · cases success
    exact .refl
  · obtain ⟨array, _, success⟩ := Success.bind_iff.mp success
    cases array with
    | true => cases success
    | false => exact wraps success
  · obtain ⟨members, _, success⟩ := Success.bind_iff.mp success
    cases success
    exact .refl

/-- Whatever is declared stands inside its declaration. -/
theorem declare_wraps {store : TypeStore} {number : TypeNumber}
    {declared : Declarator} {declaration : Declaration}
    (success : store.declare number declared = .ok declaration) :
    Wraps declared declaration.declarator := by
  induction number using Nat.strongRecOn generalizing declared declaration with
  | ind number induction =>
      have below : ∀ {below declared declaration},
          (if _ : below < number then store.declare below declared
            else .error (.store (.missing below))) = Except.ok declaration →
          Wraps declared declaration.declarator := by
        intro below declared declaration success
        split at success
        · rename_i smaller
          exact induction below smaller success
        · cases success
      rw [declare] at success
      obtain ⟨shape, _, success⟩ := Success.bind_iff.mp success
      cases shape with
      | basic code =>
          simp only at success
          split at success
          · cases success
            exact .refl
          · cases success
      | struct name fields signature =>
          cases success
          exact .refl
      | trait name prototypes =>
          cases success
          exact .refl
      | function type =>
          obtain ⟨params, _, wraps⟩ := declareFunctionBy_wraps below success
          have inside : Wraps declared (.function (.group (.pointer declared)) params) :=
            .function (.group (.pointer .refl))
          exact inside.trans wraps
      | array element capacity =>
          have inside : Wraps declared (.array declared capacity) := .array .refl
          exact inside.trans (below success)
      | pointer mode pointee =>
          obtain ⟨array, _, success⟩ := Success.bind_iff.mp success
          cases array with
          | true =>
              have inside : Wraps declared (.group (.pointer declared)) :=
                .group (.pointer .refl)
              exact inside.trans (below success)
          | false =>
              have inside : Wraps declared (.pointer declared) := .pointer .refl
              exact inside.trans (below success)
      | aliasOf name target => exact below success

theorem declare_declared {store : TypeStore} {number : TypeNumber}
    {name : String} {declaration : Declaration}
    (success : store.declare number (.name name) = .ok declaration) :
    declaration.declarator.declared = name :=
  (declare_wraps success).declared_eq

/-- A declared function has the names of its parameters, in order. -/
theorem declareFunction_parameters {store : TypeStore} {type : FunctionType}
    {name : String} {declaration : Declaration}
    (success : store.declareFunction type (.name name) = .ok declaration) :
    declaration.declarator.parameters.map (·.declarator.declared) =
      type.params.map Field.name := by
  obtain ⟨params, paramsSuccess, wraps⟩ :=
    declareFunctionBy_wraps declare_wraps success
  rw [wraps.parameters_eq]
  have related := Success.mapM_iff.mp paramsSuccess
  clear paramsSuccess wraps success
  generalize type.params = fields at related ⊢
  induction related with
  | nil => rfl
  | cons first _ induction =>
      rw [List.map_cons, List.map_cons, induction, declare_declared first]

end TypeStore

namespace Lowering

/-- Items that only declare variables of the given names. -/
def DeclaresNames (items : List C.Item) (names : List String) : Prop :=
  ∃ declarations : List C.Declaration,
    items = declarations.map .declare ∧
      declarations.map (·.declarator.declared) = names

theorem DeclaresNames.append {left right : List C.Item}
    {leftNames rightNames : List String}
    (first : DeclaresNames left leftNames) (second : DeclaresNames right rightNames) :
    DeclaresNames (left ++ right) (leftNames ++ rightNames) := by
  obtain ⟨leftDeclarations, rfl, rfl⟩ := first
  obtain ⟨rightDeclarations, rfl, rfl⟩ := second
  exact ⟨leftDeclarations ++ rightDeclarations, by simp, by simp⟩

private theorem declaresNames_of_mapM (typeOf : α → TypeNumber)
    (nameOf : α → String) {types : TypeStore} {entries : List α}
    {items : List C.Item}
    (success : (entries.mapM fun entry => do
      return C.Item.declare (← types.declare (typeOf entry)
        (.name (nameOf entry))) : Except LoweringError _) = .ok items) :
    DeclaresNames items (entries.map nameOf) := by
  have related := Success.mapM_iff.mp success
  clear success
  induction related with
  | nil => exact ⟨[], rfl, rfl⟩
  | cons first _ induction =>
      obtain ⟨declaration, declared, same⟩ := Success.bind_iff.mp first
      cases same
      obtain ⟨declarations, rfl, names⟩ := induction
      refine ⟨declaration :: declarations, rfl, ?_⟩
      rw [List.map_cons, List.map_cons, names, TypeStore.declare_declared declared]

/-- The names of all registers of an activation, in order. -/
def Activation.registerNames (activation : Activation) : List String :=
  (List.range activation.body.registers.length).map fun number =>
    (activation.slot number).text

theorem declarations_names {types : TypeStore} {activation : Activation}
    {items : List C.Item} (success : activation.declarations types = .ok items) :
    DeclaresNames items activation.registerNames := by
  have declares := declaresNames_of_mapM Prod.fst
    (fun entry => (activation.slot entry.2).text) success
  have numbers : activation.body.registers.zipIdx.map Prod.snd =
      List.range activation.body.registers.length := by
    rw [List.zipIdx_map_snd, List.range_eq_range']
  have names : activation.body.registers.zipIdx.map
      (fun entry => (activation.slot entry.2).text) = activation.registerNames := by
    rw [Activation.registerNames, ← numbers, List.map_map]
    rfl
  rwa [names] at declares

/-- The names of temporaries for the results of callees. -/
def temporaryNames (results : List (String × TypeNumber)) : List String :=
  results.map fun entry => (C.Variable.result entry.1).text

theorem temporaries_names {types : TypeStore}
    {results : List (String × TypeNumber)} {items : List C.Item}
    (success : temporaries types results = .ok items) :
    DeclaresNames items (temporaryNames results) :=
  declaresNames_of_mapM Prod.snd
    (fun entry => (C.Variable.result entry.1).text) success

/-- The declared name of a definition is that of its function. -/
theorem Defines.declared_eq {program : Program} {function : BodiedFunction}
    {before after : List NativeFunction}
    {definition : C.Definition}
    (defines : Defines program function before definition after) :
    definition.head.declarator.declared = function.name := by
  cases defines with
  | mk _ _ _ _ headed _ _ =>
      obtain ⟨params, _, wraps⟩ :=
        TypeStore.declareFunctionBy_wraps TypeStore.declare_wraps headed
      exact wraps.declared_eq

end Lowering

end CBackend
