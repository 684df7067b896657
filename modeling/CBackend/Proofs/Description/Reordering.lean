import Mathlib.Data.Finset.Card
import CBackend.Proofs.Description.Building

/-!
# Listing structs in another order

Structs may be named everywhere, so the order in which they are listed has no
part in whether a description is built, as long as the traits and aliases that
they name come first.  When all structs are listed last, every order of them
will do.  One of these orders lists each struct after all that it holds by
value: there is one because no struct holds itself.
-/

namespace CBackend.Description

open Relation (TransGen)

/-- The other description lists the structs in another order, with traits and
aliases in their order before, after or between them. -/
structure Reorders (description other : Description) : Prop where
  name_eq : other.name = description.name
  pointerSize_eq : other.pointerSize = description.pointerSize
  structs_perm : (structsOf other.types).Perm (structsOf description.types)
  others_eq : othersOf other.types = othersOf description.types
  callees_eq : other.callees = description.callees

theorem Reorders.symm {description other : Description} (reorders : description.Reorders other) :
    other.Reorders description :=
  ⟨reorders.name_eq.symm, reorders.pointerSize_eq.symm, reorders.structs_perm.symm,
    reorders.others_eq.symm, reorders.callees_eq.symm⟩

theorem Reorders.trans {description between other : Description}
    (first : description.Reorders between) (second : between.Reorders other) :
    description.Reorders other :=
  ⟨second.name_eq.trans first.name_eq, second.pointerSize_eq.trans first.pointerSize_eq,
    second.structs_perm.trans first.structs_perm, second.others_eq.trans first.others_eq,
    second.callees_eq.trans first.callees_eq⟩

theorem Reorders.mem_iff {description other : Description}
    (reorders : description.Reorders other) {entry : TypeEntry} :
    entry ∈ other.types ↔ entry ∈ description.types := by
  have same : entry ∈ structsOf other.types ++ othersOf other.types ↔
      entry ∈ structsOf description.types ++ othersOf description.types := by
    rw [reorders.others_eq]
    exact (reorders.structs_perm.append_right _).mem_iff
  rwa [mem_parts, mem_parts] at same

section StructsLast

variable {types structs : List TypeEntry}

theorem structsLast_perm (permuted : structs.Perm (structsOf types)) :
    (othersOf types ++ structs).Perm types :=
  (permuted.append_left _).trans (List.perm_append_comm.trans (parts_perm types))

theorem structsOf_structsLast (permuted : structs.Perm (structsOf types)) :
    structsOf (othersOf types ++ structs) = structs := by
  have none : structsOf (othersOf types) = [] := by
    apply List.filter_eq_nil_iff.mpr
    intro entry member
    simpa using (mem_othersOf.mp member).2
  have all : structsOf structs = structs := by
    apply List.filter_eq_self.mpr
    intro entry member
    exact (mem_structsOf.mp (permuted.mem_iff.mp member)).2
  rw [structsOf_append, none, all, List.nil_append]

theorem othersOf_structsLast (permuted : structs.Perm (structsOf types)) :
    othersOf (othersOf types ++ structs) = othersOf types := by
  have all : othersOf (othersOf types) = othersOf types := by
    apply List.filter_eq_self.mpr
    intro entry member
    simpa using (mem_othersOf.mp member).2
  have none : othersOf structs = [] := by
    apply List.filter_eq_nil_iff.mpr
    intro entry member
    simpa using (mem_structsOf.mp (permuted.mem_iff.mp member)).2
  rw [othersOf_append, all, none, List.append_nil]

/-- A trait or alias that comes before an entry still does. -/
theorem mem_before_structsLast (distinct : types.Nodup)
    {early late before after : List TypeEntry} {entry other : TypeEntry}
    (isSplit : types = early ++ entry :: late)
    (isNewSplit : othersOf types ++ structs = before ++ entry :: after) (isEarly : other ∈ early)
    (noStruct : other.isStruct = false) : other ∈ before := by
  have isOther : other ∈ othersOf types := by
    apply mem_othersOf.mpr
    rw [isSplit]
    exact ⟨List.mem_append_left _ isEarly, noStruct⟩
  rcases List.append_eq_append_iff.mp isNewSplit with ⟨more, same, _⟩ | ⟨rest, same, isRest⟩
  · rw [same]
    exact List.mem_append_left _ isOther
  · cases rest with
    | nil =>
        rw [List.append_nil] at same
        rw [← same]
        exact isOther
    | cons first rest =>
        cases isRest
        have entryNoStruct : entry.isStruct = false := by
          apply (mem_othersOf.mp (_ : entry ∈ othersOf types)).2
          rw [same]
          exact List.mem_append_right _ List.mem_cons_self
        have othersDistinct : (othersOf types).Nodup := distinct.filter _
        have split : othersOf types = othersOf early ++ entry :: othersOf late := by
          rw [isSplit, othersOf_append]
          simp [othersOf, entryNoStruct]
        rw [split, List.nodup_middle, List.nodup_cons, List.mem_append] at othersDistinct
        have apart := not_or.mp othersDistinct.1
        have unique := (List.append_cons_inj_of_notMem apart.1 apart.2).mp (split.symm.trans same)
        rw [← unique.1]
        exact mem_othersOf.mpr ⟨isEarly, noStruct⟩

theorem TypesWellFormed.structsLast (wellFormed : TypesWellFormed types)
    (permuted : structs.Perm (structsOf types)) : TypesWellFormed (othersOf types ++ structs) := by
  have same := structsLast_perm permuted
  refine ⟨?_, ?_, ?_⟩
  · exact (same.map TypeEntry.name).nodup_iff.mpr wellFormed.namesDistinct
  · intro before entry after isNewSplit
    have member : entry ∈ types := by
      apply same.mem_iff.mp
      rw [isNewSplit]
      exact List.mem_append_right _ List.mem_cons_self
    obtain ⟨early, late, isSplit⟩ := List.append_of_mem member
    have fits := wellFormed.fits early entry late isSplit
    refine ⟨fits.fieldsDistinct, ?_⟩
    intro name used
    rcases fits.nameable name used with mnemonic | ⟨found, isFound, holds⟩ |
      ⟨found, isEarly, noStruct, hasName⟩
    · exact .inl mnemonic
    · exact .inr (.inl ⟨found, same.mem_iff.mpr isFound, holds⟩)
    · have distinct := List.Nodup.of_map _ wellFormed.namesDistinct
      exact .inr (.inr ⟨found, mem_before_structsLast distinct isSplit isNewSplit isEarly noStruct,
        noStruct, hasName⟩)
  · intro name cycle
    apply wellFormed.acyclic name
    apply TransGen.mono _ _ _ cycle
    intro outer inner embeds
    obtain ⟨entry, member, holds⟩ := embeds
    exact ⟨entry, same.mem_iff.mp member, holds⟩

end StructsLast

/-- The structs can be listed in any order. -/
theorem WellFormed.exists_reordering {description : Description}
    (wellFormed : description.WellFormed) {structs : List TypeEntry}
    (permuted : structs.Perm (structsOf description.types)) :
    ∃ other program, description.Reorders other ∧ structsOf other.types = structs ∧
      other.build = .ok program ∧ Built other program := by
  have same := structsLast_perm permuted
  let other : Description := { description with types := othersOf description.types ++ structs }
  have also : WellFormed other := by
    refine ⟨wellFormed.types.structsLast permuted, wellFormed.calleesDistinct, ?_,
      wellFormed.invokable⟩
    intro entry member name used
    rcases wellFormed.nameable entry member name used with mnemonic | ⟨found, isFound, holds⟩ |
      ⟨found, isFound, holds⟩
    · exact .inl mnemonic
    · exact .inr (.inl ⟨found, same.mem_iff.mpr isFound, holds⟩)
    · exact .inr (.inr ⟨found, same.mem_iff.mpr isFound, holds⟩)
  have listed : structsOf other.types = structs := structsOf_structsLast permuted
  rcases build_cases other with ⟨program, success, _, built⟩ | ⟨_, _, wrong⟩
  · refine ⟨other, program, ⟨rfl, rfl, ?_, othersOf_structsLast permuted, rfl⟩, listed, success,
      built⟩
    rw [listed]
    exact permuted
  · exact absurd also wrong

section Sorting

open Classical in
/-- The number of types that a type holds by value, at any depth. -/
noncomputable def heldCount (types : List TypeEntry) (name : String) : Nat :=
  ((types.map TypeEntry.name).toFinset.filter (TransGen (Embeds types) name)).card

variable {types : List TypeEntry}

open Classical in
theorem heldCount_lt (acyclic : ∀ name, ¬ TransGen (Embeds types) name name)
    {outer inner : String} (walk : TransGen (Embeds types) outer inner)
    (declared : inner ∈ types.map TypeEntry.name) :
    heldCount types inner < heldCount types outer := by
  apply Finset.card_lt_card
  rw [Finset.ssubset_iff_of_subset]
  · refine ⟨inner, ?_, ?_⟩
    · simpa [walk] using declared
    · simp [acyclic inner]
  · intro name member
    rw [Finset.mem_filter] at member ⊢
    exact ⟨member.1, walk.trans member.2⟩

theorem exists_sorted (types : List TypeEntry) :
    ∃ structs : List TypeEntry, structs.Perm (structsOf types) ∧
      structs.Pairwise fun first second =>
        heldCount types first.name ≤ heldCount types second.name := by
  let before (first second : TypeEntry) : Bool :=
    decide (heldCount types first.name ≤ heldCount types second.name)
  have transitive : ∀ first second third, before first second = true →
      before second third = true → before first third = true := by
    intro first second third earlier later
    exact decide_eq_true (Nat.le_trans (of_decide_eq_true earlier) (of_decide_eq_true later))
  have total : ∀ first second, (before first second || before second first) = true := by
    intro first second
    simpa [before] using Nat.le_total _ _
  refine ⟨(structsOf types).mergeSort before, List.mergeSort_perm _ _, ?_⟩
  apply (List.pairwise_mergeSort transitive total (structsOf types)).imp
  intro first second earlier
  exact of_decide_eq_true earlier

end Sorting

end CBackend.Description
