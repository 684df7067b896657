import CBackend.Proofs.Execution.Definitions
import CBackend.Proofs.Lowering.Layout

/-!
# Where gotos lead

The code of a body has one label for each of its blocks.  A goto to such a
label goes on with what was emitted for that block and all later ones.
-/

namespace CBackend

namespace Execution

open Lowering

theorem fromLabel_here {item : C.Item} {label : C.Label}
    (labelled : item.label? = some label) (later : List C.Item) :
    fromLabel label.text (C.spelledItems (item :: later)) =
      some (C.spelledItems (item :: later)) := by
  rw [C.spelledItems, fromLabel, C.Item.label?_spelled, labelled, if_pos]
  rfl

theorem fromLabel_skip {label : C.Label} {items : List C.Item}
    (absent : ∀ item ∈ items, item.label? ≠ some label) (later : List C.Item) :
    fromLabel label.text (C.spelledItems (items ++ later)) =
      fromLabel label.text (C.spelledItems later) := by
  induction items with
  | nil => rfl
  | cons item items induction =>
      have different : item.spelled.label? ≠ some label.text := by
        rw [C.Item.label?_spelled]
        intro same
        obtain ⟨found, labelled, text⟩ := Option.map_eq_some_iff.mp same
        apply absent item List.mem_cons_self
        rw [labelled, C.Label.text_injective text]
      rw [List.cons_append, C.spelledItems, fromLabel, if_neg different]
      exact induction fun item member => absent item (List.mem_cons_of_mem _ member)

/-- The label of a block leads to that block and those after it. -/
theorem fromLabel_block {program : Program} {dormant : List CalleeNumber}
    {activation : Activation} {before after : Usage} {code : List C.Item}
    (emitted : Emits program dormant activation before activation.body.lines code
      after)
    {target : Nat} (present : target < activation.body.blocks.length)
    (more : List C.Item) :
    ∃ between items, fromLabel (activation.label target).text
        (C.spelledItems (code ++ more)) = some (C.spelledItems (items ++ more)) ∧
      before.Extends between ∧
      Emits program dormant activation between
        (linesFrom target (activation.body.blocks.drop target)) items after := by
  have lines : activation.body.lines =
      linesFrom 0 (activation.body.blocks.take target) ++
        linesFrom target (activation.body.blocks.drop target) := by
    have length : (activation.body.blocks.take target).length = target :=
      List.length_take_of_le (Nat.le_of_lt present)
    rw [Body.lines]
    nth_rewrite 1 [← List.take_append_drop target activation.body.blocks]
    rw [linesFrom_append, length, Nat.zero_add]
  rw [lines] at emitted
  obtain ⟨between, first, second, rfl, skipped, reached⟩ := emitted.split
  refine ⟨between, second, ?_, skipped.extends, reached⟩
  rw [List.append_assoc, fromLabel_skip]
  · rw [List.drop_eq_getElem_cons present, linesFrom] at reached
    cases reached with
    | start later => exact fromLabel_here rfl _
  · intro item member labelled
    have found := List.mem_filterMap.mpr ⟨item, member, labelled⟩
    rw [skipped.labels, linesFrom_starts, List.length_take] at found
    obtain ⟨number, started, same⟩ := List.mem_map.mp found
    cases same
    have bounds := List.mem_range'_1.mp started
    omega

/-- The code of a body does not hold the label at its end. -/
theorem fromLabel_finish {program : Program} {dormant : List CalleeNumber}
    {activation : Activation} {before after : Usage} {lines : List Line}
    {code : List C.Item}
    (emitted : Emits program dormant activation before lines code after)
    (number : Nat) (more : List C.Item) :
    fromLabel (C.Label.finish number).text
        (C.spelledItems (code ++ .emptyLabel (.finish number) :: more)) =
      some (C.spelledItems (.emptyLabel (.finish number) :: more)) := by
  rw [fromLabel_skip]
  · exact fromLabel_here rfl _
  · intro item member labelled
    have found := List.mem_filterMap.mpr ⟨item, member, labelled⟩
    rw [emitted.labels] at found
    obtain ⟨_, _, same⟩ := List.mem_map.mp found
    cases same

end Execution

end CBackend
