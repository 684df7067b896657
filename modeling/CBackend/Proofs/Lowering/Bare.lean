import CBackend.Output.Basic
import CBackend.Proofs.TypeStore.Bare

/-!
# Lowering without layouts

No part of lowering reads a layout: a program and its bare form have the
same declarations, the same header, the same definitions and the same
failures.
-/

namespace CBackend

theorem Shape.bare_tag? (shape : Shape) : shape.bare.tag? = shape.tag? := by cases shape <;> rfl

namespace TypeStore

variable (store : TypeStore)

theorem bare_declareFunctionBy : store.bare.declareFunctionBy = store.declareFunctionBy := by
  funext declare type declared
  simp only [declareFunctionBy, bare_isArray]

theorem bare_declare : store.bare.declare = store.declare := by
  funext number
  induction number using Nat.strongRecOn with
  | ind number induction =>
    funext declared
    have wraps : ∀ (below : TypeNumber) (declared : C.Declarator),
        (if _ : below < number then store.bare.declare below declared
          else .error (.store (.missing below))) =
        if _ : below < number then store.declare below declared
          else .error (.store (.missing below)) := by
      intro below declared
      split
      · rw [induction below ‹_›]
      · rfl
    rw [declare, declare, bare_shapeAt]
    simp only [wraps, bare_declareFunctionBy, bare_isArray]
    cases store.shapeAt number with
    | error cause => rfl
    | ok shape => cases shape <;> rfl

theorem bare_declareFields : store.bare.declareFields = store.declareFields := by
  funext fields
  simp only [declareFields, bare_declare]

theorem bare_declareFunction : store.bare.declareFunction = store.declareFunction := by
  funext type declared
  simp only [declareFunction, bare_declareFunctionBy, bare_declare]

theorem bare_defineStruct : store.bare.defineStruct = store.defineStruct := by
  funext name fields
  simp only [defineStruct, bare_declareFields]

theorem bare_defineTrait : store.bare.defineTrait = store.defineTrait := by
  funext name prototypes
  simp only [defineTrait, declareFunctionPointer, bare_declareFunction]

@[simp] theorem bare_content (number : TypeNumber) :
    store.bare.content number = store.content number := by
  induction number using Nat.strongRecOn with
  | ind number induction =>
    rw [content, content, bare_shapeAt]
    simp only [descend_congr induction]
    cases store.shapeAt number with
    | error cause => rfl
    | ok shape => cases shape <;> rfl

theorem bare_requireComplete : store.bare.requireComplete = store.requireComplete := by
  funext complete struct field
  simp only [requireComplete, bare_content, bare_shapeAt]
  apply bind_congr
  intro inner
  cases store.shapeAt inner with
  | error cause => rfl
  | ok shape => cases shape <;> rfl

theorem bare_defineAll (next : TypeNumber) (complete : List TypeNumber) (shapes : List Shape) :
    store.bare.defineAll next complete (shapes.map Shape.bare) =
      store.defineAll next complete shapes := by
  induction shapes generalizing next complete with
  | nil => rfl
  | cons shape later induction =>
      cases shape <;>
        simp only [List.map_cons, Shape.bare, defineAll, induction, bare_requireComplete,
          bare_defineStruct, bare_defineTrait]

end TypeStore

namespace Program

def bare (program : Program) : Program := { program with types := program.types.bare }

end Program

namespace Lowering

variable (program : Program)

theorem bare_validate (types : TypeStore) :
    Activation.validate types.bare = Activation.validate types := by
  funext activation
  simp only [Activation.validate, TypeStore.bare_isArray]

theorem bare_declarations (types : TypeStore) :
    Activation.declarations types.bare = Activation.declarations types := by
  funext activation
  simp only [Activation.declarations, TypeStore.bare_declare]

theorem bare_link (types : TypeStore) : link types.bare = link types := by
  funext native
  simp only [link, TypeStore.bare_declareFunction]

theorem bare_temporaries (types : TypeStore) : temporaries types.bare = temporaries types := by
  funext results
  simp only [temporaries, TypeStore.bare_declare]

theorem bare_instruction : instruction program.bare = instruction program := by
  funext expand activation next
  cases next <;> simp only [instruction, invoke, Program.bare, bare_link]

theorem bare_blocks : blocks program.bare = blocks program := by
  funext expand activation
  simp only [blocks, block, bare_instruction]

theorem bare_expand (dormant : List CalleeNumber) (chain : List String) :
    expand program.bare dormant chain = expand program dormant chain := by
  funext number function args results
  rw [expand, expand]
  split
  · have inner := bare_expand (dormant.erase number) (chain ++ [function.name])
    simp only [inner, bare_blocks]
    simp only [Program.bare, bare_validate, bare_declarations]
  · rfl
termination_by dormant.length
decreasing_by exact length_erase_lt ‹_ ∈ dormant›

theorem bare_code : code program.bare = code program := by
  funext activation
  simp only [code, bare_blocks, bare_expand]
  rfl

theorem bare_definition : definition program.bare = definition program := by
  funext function natives
  simp only [definition, bare_code]
  simp only [Program.bare, bare_validate, bare_declarations, bare_temporaries,
    TypeStore.bare_declareFunction]
  rfl

theorem bare_definitions (natives : List NativeFunction) (functions : List BodiedFunction) :
    definitions program.bare natives functions = definitions program natives functions := by
  induction functions generalizing natives with
  | nil => rfl
  | cons function later induction => simp only [definitions, bare_definition, induction]

end Lowering

namespace Program

variable (program : Program)

theorem bare_header : program.bare.header = program.header := by
  have compiled : program.bare.declareCompiled = program.declareCompiled := by
    funext function
    simp only [declareCompiled, bare, TypeStore.bare_declareFunction]
    rfl
  have tags : program.types.bare.shapes.filterMap Shape.tag? =
      program.types.shapes.filterMap Shape.tag? := by
    simp only [TypeStore.bare, List.filterMap_map, Function.comp_def, Shape.bare_tag?]
  have structs : program.types.bare.defineAll 0 [] program.types.bare.shapes =
      program.types.defineAll 0 [] program.types.shapes := TypeStore.bare_defineAll _ _ _ _
  simp only [header, compiled]
  simp only [bare, tags, structs]
  rfl

theorem bare_source : program.bare.source = program.source := by
  simp only [source, Lowering.bare_definitions]
  simp only [bare, TypeStore.bare_declareFunction]
  rfl

end Program

end CBackend
