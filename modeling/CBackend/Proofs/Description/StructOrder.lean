import CBackend.Proofs.Description.Reordering
import CBackend.Proofs.Description.Twins

/-!
# The order in which structs are listed

The signature of a struct depends on the order of the entries: what the struct
holds adds its codes only if it is listed before the struct.  Orders in which
everything held by value comes first, or has no codes at all, give the
flattening of each struct, and every description has such an order.

Main statement: an order gives the same outlines as one of these exactly if it
is one of these itself, and the order does not matter at all exactly if no
struct holds another one that has codes.
-/

namespace CBackend

open Relation (ReflTransGen TransGen)

namespace TypeStore

theorem length_flatten_le {parts others : List Signature}
    (related : List.Forall₂ (fun part other => part = [] ∨ part = other) parts others) :
    parts.flatten.length ≤ others.flatten.length := by
  induction related with
  | nil => exact Nat.le_refl _
  | cons first _ induction =>
      rw [List.flatten_cons, List.flatten_cons, List.length_append, List.length_append]
      rcases first with empty | same
      · rw [empty, List.length_nil]
        omega
      · rw [same]
        omega

/-- If some parts are left out and the whole is the same, they were empty. -/
theorem eq_of_flatten_eq {parts others : List Signature}
    (related : List.Forall₂ (fun part other => part = [] ∨ part = other) parts others)
    (same : parts.flatten = others.flatten) : parts = others := by
  induction related with
  | nil => rfl
  | @cons part other parts others first later induction =>
      rw [List.flatten_cons, List.flatten_cons] at same
      have shorter := length_flatten_le later
      have equal : part = other := by
        rcases first with empty | equal
        · have lengths := congrArg List.length same
          rw [List.length_append, List.length_append, empty, List.length_nil] at lengths
          have none : other.length = 0 := by omega
          rw [empty, List.length_eq_zero_iff.mp none]
        · exact equal
      rw [equal] at same ⊢
      rw [induction (List.append_cancel_left same)]

theorem forall₂_join {first : α → β → Prop} {second : α → γ → Prop} {joined : β → γ → Prop}
    {items : List α} {values : List β} {others : List γ} (related : List.Forall₂ first items values)
    (alsoRelated : List.Forall₂ second items others)
    (join : ∀ item value other, first item value → second item other → joined value other) :
    List.Forall₂ joined values others := by
  induction related generalizing others with
  | nil =>
      cases alsoRelated
      exact .nil
  | cons holds _ induction =>
      cases alsoRelated with
      | cons alsoHolds later => exact .cons (join _ _ _ holds alsoHolds) (induction later)

variable {store : TypeStore} {filled : TypeNumber}

/-- If the outlines of all structs are their flattenings, a field contributes
what it flattens to, or nothing. -/
theorem Contributes.empty_or_flattening
    (flatten : ∀ number name fields signature,
      store.shapeAt number = .ok (.struct name fields signature) →
      store.Flattens [number] (signature.outline store.pointerSize))
    {holder type : TypeNumber} {part codes : Signature}
    (contributes : store.Contributes holder type part) (flattens : store.Flattens [type] codes) :
    part = [] ∨ part = codes := by
  obtain ⟨target, shape, resolves, isShape, isPart⟩ := contributes
  rw [Flattens.unalias_iff resolves] at flattens
  obtain ⟨_, isFound, noAlias⟩ := unalias_not_alias resolves
  rw [isShape] at isFound
  cases isFound
  have whole : store.Flattens [target] (shape.outline store.pointerSize) := by
    by_cases isAStruct : shape.isStruct = true
    · obtain ⟨name, fields, signature, rfl⟩ := Shape.struct_of_isStruct isAStruct
      exact flatten target name fields signature isShape
    · exact flattens_own isShape (Bool.eq_false_iff.mpr isAStruct) noAlias
  split at isPart
  · exact .inl isPart
  · right
    rw [isPart]
    exact whole.unique flattens

/-- A store is settled if the outlines of all structs are their flattenings.
Parts can only be missing, and nothing is missing from the whole. -/
theorem Snapshot.settled (snapshot : store.Snapshot filled)
    (flatten : ∀ number name fields signature,
      store.shapeAt number = .ok (.struct name fields signature) →
      store.Flattens [number] (signature.outline store.pointerSize)) : store.Settled := by
  intro number target held
  obtain ⟨name, fields, signature, field, _, _, _, isStruct, member, resolves, isTarget⟩ := held
  by_cases before : target < number
  · exact .inl before
  right
  obtain ⟨parts, contributed, same⟩ := snapshot.taken number name fields signature isStruct
  have flattens := flatten number name fields signature isStruct
  rw [Flattens.struct_iff isStruct, Flattens.list_iff] at flattens
  obtain ⟨others, flattened, alsoSame⟩ := flattens
  have related : List.Forall₂ (fun part codes => part = [] ∨ part = codes) parts others := by
    apply forall₂_join contributed flattened
    intro type part codes contributes flattens
    exact contributes.empty_or_flattening flatten flattens
  rw [← eq_of_flatten_eq related (same.symm.trans alsoSame)] at flattened
  obtain ⟨part, _, contributes, fieldFlattens⟩ := Success.related_of_mem
    (contributed.mp (fun _ _ contributes flattens => And.intro contributes flattens) flattened)
    field.type (List.mem_map_of_mem member)
  obtain ⟨_, _, alsoResolves, alsoShape, isPart⟩ := contributes
  rw [resolves] at alsoResolves
  cases alsoResolves
  rw [isTarget] at alsoShape
  cases alsoShape
  rw [if_pos ⟨rfl, Nat.le_of_not_lt before⟩] at isPart
  rw [isPart, Flattens.unalias_iff resolves] at fieldFlattens
  exact fieldFlattens

/-- No struct holds another one that has codes. -/
def HoldsNoContent (store : TypeStore) : Prop :=
  ∀ holder target, store.HoldsStruct holder target → store.Flattens [target] []

theorem HoldsNoContent.settled (empty : store.HoldsNoContent) : store.Settled := by
  intro holder target held
  exact .inr (empty holder target held)

end TypeStore

namespace Program

/-- The signature of the struct of a name has the given outline. -/
def Reports (program : Program) (name : String) (codes : Signature) : Prop :=
  ∃ number fields stored signature, program.types.find? name = some number ∧
    program.types.shapeAt number = .ok (.struct name fields stored) ∧
    program.types.signature number = .ok signature ∧
    codes = signature.outline program.types.pointerSize

/-- Every struct has the same outline in both programs. -/
def SameReports (program other : Program) : Prop :=
  ∀ name codes, program.Reports name codes ↔ other.Reports name codes

end Program

namespace Description

variable {description description' : Description} {program program' : Program}

theorem Built.reports_iff (built : Built description program) {name : String}
    {codes : Signature} :
    program.Reports name codes ↔ ∃ number fields signature,
      program.types.shapeAt number = .ok (.struct name fields signature) ∧
        codes = signature.outline program.types.pointerSize := by
  have stored : ∀ {number fields signature},
      program.types.shapeAt number = .ok (.struct name fields signature) →
      program.types.signature number = .ok signature := by
    intro number fields signature isStruct
    rw [TypeStore.signature, isStruct]
    rfl
  constructor
  · intro reports
    obtain ⟨number, fields, signature, reported, _, isStruct, laidOut, same⟩ := reports
    rw [stored isStruct] at laidOut
    cases laidOut
    exact ⟨number, fields, signature, isStruct, same⟩
  · intro found
    obtain ⟨number, fields, signature, isStruct, same⟩ := found
    refine ⟨number, fields, signature, signature, ?_, isStruct, stored isStruct, same⟩
    apply (TypeStore.find?_eq_some_iff built.holds.distinct).mpr
    exact ⟨_, isStruct, rfl⟩

theorem Built.flattens (built : Built description program) (settled : program.types.Settled)
    {number : TypeNumber} {name : String} {fields : List Field} {signature : Signature}
    (isStruct : program.types.shapeAt number = .ok (.struct name fields signature)) :
    program.types.Flattens [number] (signature.outline program.types.pointerSize) := by
  obtain ⟨filled, snapshot⟩ := built.snapshot
  exact snapshot.flattens settled isStruct

theorem Reorders.twins (reorders : description.Reorders description')
    (built : Built description program) (built' : Built description' program') :
    Twins program.types program'.types := by
  have holds := built'.holds
  rw [reorders.others_eq] at holds
  apply Twins.of_holds built.holds holds reorders.structs_perm
  rw [built.pointerSize_eq, built'.pointerSize_eq, reorders.pointerSize_eq]

theorem Reorders.reports_of_settled (reorders : description.Reorders description')
    (built : Built description program) (built' : Built description' program')
    (settled : program.types.Settled) (settled' : program'.types.Settled) {name : String}
    {codes : Signature} (reports : program.Reports name codes) : program'.Reports name codes := by
  obtain ⟨number, fields, signature, isStruct, same⟩ := built.reports_iff.mp reports
  have twins := reorders.twins built built'
  obtain ⟨number', named'⟩ := twins.counterpart ⟨_, isStruct, rfl⟩
  obtain ⟨fields', signature', _, isStruct', _⟩ := twins.struct_shared isStruct named'
  have flattens := built.flattens settled isStruct
  rw [← same] at flattens
  have moved := twins.struct_flattens isStruct isStruct' flattens
  refine built'.reports_iff.mpr ⟨number', fields', signature', isStruct', ?_⟩
  exact moved.unique (built'.flattens settled' isStruct')

/-- An order agrees with a settled one exactly if it is settled too. -/
theorem Reorders.sameReports_iff (reorders : description.Reorders description')
    (built : Built description program) (built' : Built description' program')
    (settled' : program'.types.Settled) :
    program.SameReports program' ↔ program.types.Settled := by
  constructor
  · intro same
    obtain ⟨filled, snapshot⟩ := built.snapshot
    apply snapshot.settled
    intro number name fields signature isStruct
    have reports := (same name _).mp
      (built.reports_iff.mpr ⟨number, fields, signature, isStruct, rfl⟩)
    obtain ⟨number', fields', signature', isStruct', equal⟩ := built'.reports_iff.mp reports
    rw [equal]
    exact (reorders.twins built built').symm.struct_flattens isStruct' isStruct
      (built'.flattens settled' isStruct')
  · intro settled name codes
    constructor
    · exact reorders.reports_of_settled built built' settled settled'
    · exact reorders.symm.reports_of_settled built' built settled' settled

/-- A struct of the program has the place of its entry. -/
theorem Built.struct_entry (built : Built description program) {number : TypeNumber}
    {name : String} {fields : List Field} {signature : Signature}
    (isStruct : program.types.shapeAt number = .ok (.struct name fields signature)) :
    ∃ entry, (structsOf description.types)[number]? = some entry ∧ entry.name = name := by
  obtain ⟨entry, member, means, hasName⟩ := built.holds.represented isStruct rfl
  have isAStruct : entry.isStruct = true := means.isStruct_eq.symm
  have listed : entry ∈ structsOf description.types :=
    mem_structsOf.mpr ⟨mem_parts.mp member, isAStruct⟩
  obtain ⟨before, after, isSplit⟩ := List.append_of_mem listed
  have holds := built.holds
  rw [isSplit] at holds
  obtain ⟨shape, isShape, shapeMeans⟩ := holds.structAt
  have here : before.length = number := by
    apply TypeStore.Named.unique holds.distinct ⟨shape, isShape, shapeMeans.name?_eq⟩
    exact ⟨_, isStruct, by rw [hasName]; rfl⟩
  refine ⟨entry, ?_, hasName⟩
  rw [isSplit, ← here]
  simp

/-- What a struct holds by value is held by its entry. -/
theorem Built.embeds_entry (built : Built description program) {number target : TypeNumber}
    (held : program.types.HoldsStruct number target) :
    ∃ entry inner, (structsOf description.types)[number]? = some entry ∧
      (structsOf description.types)[target]? = some inner ∧
      TransGen (Embeds description.types) entry.name inner.name := by
  obtain ⟨_, _, _, field, _, _, _, isStruct, member, resolves, isInner⟩ := held
  obtain ⟨entry, isEntry, rfl⟩ := built.struct_entry isStruct
  obtain ⟨inner, isInnerEntry, rfl⟩ := built.struct_entry isInner
  obtain ⟨between, isBetween, walk⟩ :=
    built.holds.walk_named ⟨_, isInner, rfl⟩ (TypeStore.unalias_walk resolves)
  obtain ⟨outer, ⟨shape, isShape, hasName⟩, embeds⟩ :=
    built.holds.embeds_named ⟨_, isStruct, List.mem_map_of_mem member⟩ isBetween
  rw [isStruct] at isShape
  cases isShape
  cases hasName
  refine ⟨entry, inner, isEntry, isInnerEntry, ?_⟩
  apply TransGen.mono _ _ _ (TransGen.head' embeds walk)
  intro first second step
  obtain ⟨found, isFound, holds⟩ := step
  exact ⟨found, mem_parts.mp isFound, holds⟩

/-- Every description has a settled order. -/
theorem WellFormed.exists_settled (wellFormed : description.WellFormed) :
    ∃ other program, description.Reorders other ∧ other.build = .ok program ∧
      Built other program ∧ program.types.Settled := by
  obtain ⟨structs, permuted, sorted⟩ := exists_sorted description.types
  obtain ⟨other, program, reorders, listed, success, built⟩ :=
    wellFormed.exists_reordering permuted
  refine ⟨other, program, reorders, success, built, ?_⟩
  intro number target held
  left
  obtain ⟨entry, inner, isEntry, isInner, walk⟩ := built.embeds_entry held
  rw [listed] at isEntry isInner
  obtain ⟨inside, rfl⟩ := List.getElem?_eq_some_iff.mp isEntry
  obtain ⟨innerInside, rfl⟩ := List.getElem?_eq_some_iff.mp isInner
  have sameWalk : TransGen (Embeds description.types) structs[number].name
      structs[target].name := by
    apply TransGen.mono _ _ _ walk
    intro first second step
    obtain ⟨found, isFound, holds⟩ := step
    exact ⟨found, reorders.mem_iff.mp isFound, holds⟩
  have declared : structs[target].name ∈ description.types.map TypeEntry.name := by
    apply List.mem_map_of_mem
    exact (mem_structsOf.mp (permuted.mem_iff.mp (List.getElem_mem innerInside))).1
  have fewer := heldCount_lt wellFormed.types.acyclic sameWalk declared
  by_contra notBefore
  rcases Nat.lt_or_eq_of_le (Nat.le_of_not_lt notBefore) with after | same
  · have atMost := List.pairwise_iff_getElem.mp sorted number target inside innerInside after
    omega
  · simp only [same] at fewer
    exact Nat.lt_irrefl _ fewer

theorem Twins.holdsNoContent {store other : TypeStore} (twins : Twins store other)
    (empty : store.HoldsNoContent) : other.HoldsNoContent := by
  intro number' target' held'
  have ⟨name, _, _, _, _, _, _, isStruct', _⟩ := held'
  obtain ⟨number, named⟩ := twins.symm.counterpart ⟨_, isStruct', rfl⟩
  obtain ⟨target, held, same⟩ := twins.symm.held held' ⟨_, isStruct', rfl⟩ named
  exact (same []).mpr (empty number target held)

/-- If all orders are settled, also one that begins with a given struct is, so
what that struct holds has no codes. -/
theorem Built.holdsNoContent (built : Built description program)
    (wellFormed : description.WellFormed)
    (settled : ∀ other program', description.Reorders other → other.build = .ok program' →
      program'.types.Settled) : program.types.HoldsNoContent := by
  intro number target held
  have ⟨_, _, _, _, _, _, _, isStruct, _⟩ := held
  obtain ⟨entry, isEntry, rfl⟩ := built.struct_entry isStruct
  obtain ⟨before, after, isSplit⟩ := List.append_of_mem (List.mem_of_getElem? isEntry)
  have permuted : (entry :: (before ++ after)).Perm (structsOf description.types) := by
    rw [isSplit]
    exact List.perm_middle.symm
  obtain ⟨other, program', reorders, listed, success, built'⟩ :=
    wellFormed.exists_reordering permuted
  have named' : program'.types.Named entry.name 0 := by
    have holds := built'.holds
    rw [listed, ← List.nil_append (entry :: _)] at holds
    obtain ⟨first, isFirst, means⟩ := holds.structAt
    exact ⟨first, isFirst, means.name?_eq⟩
  obtain ⟨target', held', same⟩ :=
    (reorders.twins built built').held held ⟨_, isStruct, rfl⟩ named'
  rcases settled other program' reorders success 0 target' held' with earlier | flattens
  · exact absurd earlier (Nat.not_lt_zero target')
  · exact (same []).mpr flattens

/-- The outlines of signatures depend on the order in which structs are
listed.  An order agrees with a settled one exactly if it is settled, there
always is a settled one, and all orders agree exactly if no struct holds
another one that has codes. -/
theorem sameReports_orders (description : Description) (program : Program)
    (success : description.build = .ok program) :
    (∀ other program', description.Reorders other → other.build = .ok program' →
      program'.types.Settled → (program.SameReports program' ↔ program.types.Settled)) ∧
    (∃ other program', description.Reorders other ∧ other.build = .ok program' ∧
      program'.types.Settled) ∧
    ((∀ other program', description.Reorders other → other.build = .ok program' →
      program.SameReports program') ↔ program.types.HoldsNoContent) := by
  obtain ⟨wellFormed, built⟩ := built_of_build success
  obtain ⟨sorted, sortedProgram, sortedReorders, sortedSuccess, sortedBuilt, isSettled⟩ :=
    wellFormed.exists_settled
  refine ⟨?_, ⟨sorted, sortedProgram, sortedReorders, sortedSuccess, isSettled⟩, ?_, ?_⟩
  · intro other program' reorders success' settled'
    obtain ⟨_, built'⟩ := built_of_build success'
    exact reorders.sameReports_iff built built' settled'
  · intro all
    apply built.holdsNoContent wellFormed
    intro other program' reorders success'
    obtain ⟨_, built'⟩ := built_of_build success'
    have toSorted := reorders.symm.trans sortedReorders
    apply (toSorted.sameReports_iff built' sortedBuilt isSettled).mp
    intro name codes
    exact (all other program' reorders success' name codes).symm.trans
      (all sorted sortedProgram sortedReorders sortedSuccess name codes)
  · intro empty other program' reorders success'
    obtain ⟨_, built'⟩ := built_of_build success'
    have empty' := (reorders.twins built built').holdsNoContent empty
    exact (reorders.sameReports_iff built built' empty'.settled).mpr empty.settled

/-- The struct `Outer` holds the struct `Inner`, which is listed after it. -/
def outerFirst : Description where
  name := "nested"
  pointerSize := .eight
  types := [
    .struct "Outer" [⟨"inner", .named "Inner"⟩],
    .struct "Inner" [⟨"x", .named "u8"⟩]]
  callees := []

def innerFirst : Description :=
  { outerFirst with types := outerFirst.types.reverse }

def outerFirstProgram : Program where
  name := "nested"
  types := ⟨.eight, [.struct "Outer" [⟨"inner", 1⟩] [], .struct "Inner" [⟨"x", 2⟩] [⟨0o11⟩],
    .basic ⟨0o11⟩]⟩
  callees := []

def innerFirstProgram : Program where
  name := "nested"
  types := ⟨.eight, [.struct "Inner" [⟨"x", 2⟩] [⟨0o11⟩], .struct "Outer" [⟨"inner", 0⟩] [⟨0o11⟩],
    .basic ⟨0o11⟩]⟩
  callees := []

theorem outerFirst_reports_differ :
    outerFirst.build = .ok outerFirstProgram ∧ innerFirst.build = .ok innerFirstProgram ∧
      outerFirst.Reorders innerFirst ∧ ¬ outerFirstProgram.SameReports innerFirstProgram := by
  have success : outerFirst.build = .ok outerFirstProgram := by decide +kernel
  have success' : innerFirst.build = .ok innerFirstProgram := by decide +kernel
  have reorders : outerFirst.Reorders innerFirst :=
    ⟨rfl, rfl, List.reverse_perm (structsOf outerFirst.types), rfl, rfl⟩
  have settled' : innerFirstProgram.types.Settled := by
    have succeeds : innerFirstProgram.header.isOk = true := by decide +kernel
    obtain ⟨_, built'⟩ := built_of_build success'
    cases generated : innerFirstProgram.header with
    | error cause =>
        rw [generated] at succeeds
        cases succeeds
    | ok header => exact TypeStore.settled_of_inOrder (built'.founded.header_sound generated).2.1
  refine ⟨success, success', reorders, ?_⟩
  rw [(sameReports_orders outerFirst outerFirstProgram success).1 innerFirst innerFirstProgram
    reorders success' settled']
  intro settled
  have isInner : outerFirstProgram.types.shapeAt 1 =
      .ok (.struct "Inner" [⟨"x", 2⟩] [⟨0o11⟩]) := rfl
  have field : outerFirstProgram.types.Flattens [2] ([⟨0o11⟩] ++ []) := .own rfl rfl .nil
  have content := (TypeStore.Flattens.struct_iff isInner).mpr field
  have held : outerFirstProgram.types.HoldsStruct 0 1 :=
    ⟨"Outer", _, _, ⟨"inner", 1⟩, "Inner", _, _, rfl, List.mem_cons_self,
      by decide +kernel, isInner⟩
  rcases settled 0 1 held with earlier | empty
  · exact absurd earlier (by decide)
  · cases content.unique empty

end Description

end CBackend
