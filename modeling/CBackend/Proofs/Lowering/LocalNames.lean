import Mathlib.Data.List.Nodup
import CBackend.Proofs.C.Names
import CBackend.Proofs.Lowering.Declarations
import CBackend.Proofs.Lowering.ParameterNames
import CBackend.Proofs.Lowering.Usage

/-!
# Names inside a definition

Parameters, registers and temporaries of a definition share one block, and
the registers of each expansion have a block of their own.  All names in a
block differ, and registers of different owners are never spelled alike.
-/

namespace CBackend.Lowering

theorem slot_text_injective {activation : Activation}
    {left right : Nat}
    (same : (activation.slot left).text = (activation.slot right).text) :
    left = right :=
  (C.Variable.register_text_injective same).2

theorem registerNames_getElem? {activation : Activation} {number : RegisterNumber}
    (inside : number < activation.body.registers.length) (more : List String) :
    (activation.registerNames ++ more)[number]? =
      some (activation.slot number).text := by
  have length : number < activation.registerNames.length := by
    simpa [Activation.registerNames] using inside
  rw [List.getElem?_append_left length]
  simp [Activation.registerNames, inside]

theorem registerNames_nodup (activation : Activation) :
    activation.registerNames.Nodup := by
  apply List.Nodup.map
  · intro left right same
    exact slot_text_injective same
  · exact List.nodup_range

/-- Register names of one owner are not those of another. -/
theorem slot_text_not_mem_registerNames {left right : C.Owner}
    (different : left ≠ right) (leftFunction rightFunction : BodiedFunction)
    (number : RegisterNumber) :
    ((activationOf leftFunction left).slot number).text ∉
      (activationOf rightFunction right).registerNames := by
  intro member
  obtain ⟨other, _, same⟩ := List.mem_map.mp member
  exact different (C.Variable.register_text_injective same).1.symm

variable {program : Program}

/-- Parameters are never named like registers or temporaries. -/
theorem param_not_local {reserved : List String} {name : String}
    (usable : Parameters.isUsable reserved name = true) :
    (∀ number, name ≠ (C.Variable.register .function number).text) ∧
      ∀ callee, name ≠ (C.Variable.result callee).text := by
  constructor
  · intro number same
    have looks := Parameters.looksLikeRegister_register number
    rw [← same] at looks
    simp [Parameters.isUsable, looks] at usable
  · intro callee same
    have looks := Parameters.looksLikeTemporary_result callee
    rw [← same] at looks
    simp [Parameters.isUsable, looks] at usable

theorem param_not_mem_locals {reserved : List String} {name : String}
    (usable : Parameters.isUsable reserved name = true) (function : BodiedFunction)
    (results : List (String × TypeNumber)) :
    name ∉ (definitionOf function).registerNames ++ temporaryNames results := by
  obtain ⟨noRegister, noTemporary⟩ := param_not_local usable
  intro named
  rcases List.mem_append.mp named with register | temporary
  · obtain ⟨number, _, same⟩ := List.mem_map.mp register
    exact noRegister number same.symm
  · obtain ⟨entry, _, same⟩ := List.mem_map.mp temporary
    exact noTemporary entry.1 same.symm

theorem definitionType_names (program : Program) (type : FunctionType) :
    ((program.definitionType type).params.map Field.name).Nodup ∧
      (program.definitionType type).params.length = type.params.length ∧
      ∀ name ∈ (program.definitionType type).params.map Field.name,
        Parameters.isUsable program.globals name = true := by
  refine ⟨Parameters.forDefinition_nodup _ _, ?_,
    fun _ member => Parameters.forDefinition_isUsable member⟩
  have types := congrArg List.length
    (Parameters.forDefinition_types program.globals type.params)
  rw [List.length_map, List.length_map] at types
  exact types

theorem temporaryNames_nodup {usage : Usage} (sound : usage.Sound program) :
    (temporaryNames usage.results).Nodup := by
  have names : temporaryNames usage.results =
      usage.keptResults.map fun callee => (C.Variable.result callee).text := by
    simp [temporaryNames, Usage.keptResults]
  rw [names]
  apply List.Nodup.map
  · intro left right same
    exact C.Variable.result_text_injective same
  · exact sound.distinct

/-- Registers and temporaries of a definition are told apart by name. -/
theorem locals_nodup {usage : Usage} (sound : usage.Sound program)
    (activation : Activation) :
    (activation.registerNames ++ temporaryNames usage.results).Nodup := by
  rw [List.nodup_append]
  refine ⟨registerNames_nodup _, temporaryNames_nodup sound, ?_⟩
  intro name register other temporary same
  obtain ⟨number, _, rfl⟩ := List.mem_map.mp register
  obtain ⟨entry, _, rfl⟩ := List.mem_map.mp temporary
  exact C.Variable.register_text_ne_result_text _ _ _ same

end CBackend.Lowering
