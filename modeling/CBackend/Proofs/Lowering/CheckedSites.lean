import CBackend.Proofs.Lowering.Layout
import CBackend.Proofs.Lowering.Lowerable

/-!
# What successful lowering has checked

Lowering checks each site when it gets there, and goes on into the inline
functions that are invoked.  The natives that were called are kept, one for
each link symbol; a native that is not kept itself has the same prototype as
the one that is.  So a program whose source is generated can be lowered in
the sense of the specification.
-/

namespace CBackend.Program

open Relation (ReflTransGen)
open Lowering

/-- A native of the same link symbol and prototype is kept. -/
def Keeps (types : TypeStore) (natives : List NativeFunction) (native : NativeFunction) :
    Prop :=
  ∃ kept ∈ natives, kept.symbol = native.symbol ∧
    prototypeText types kept = prototypeText types native

/-- A site and all sites it leads to have been checked. -/
def Checked (program : Program) (natives : List NativeFunction) (site : Site) : Prop :=
  ∀ inner, ReflTransGen program.Enters site inner → program.SiteFits inner ∧
    ∀ number args results native,
      Instruction.invoke number args results ∈ inner.body.instructions →
      program.callees[number]? = some (.native native) → Keeps program.types natives native

structure InstructionChecked (program : Program) (natives : List NativeFunction)
    (site : Site) (instruction : Instruction) : Prop where
  fits : program.InstructionFits site instruction
  keeps : ∀ number args results native, instruction = .invoke number args results →
    program.callees[number]? = some (.native native) → Keeps program.types natives native
  inside : ∀ number args results inner, instruction = .invoke number args results →
    program.callees[number]? = some (.inlined inner) →
      program.Checked natives ⟨number :: site.chain, inner⟩

section Checked

variable {program : Program} {natives more : List NativeFunction} {site : Site}

theorem Checked.mono (checked : program.Checked natives site) (grows : natives ⊆ more) :
    program.Checked more site := by
  intro inner path
  obtain ⟨fits, keeps⟩ := checked inner path
  refine ⟨fits, ?_⟩
  intro number args results native invoked found
  obtain ⟨kept, member, same⟩ := keeps number args results native invoked found
  exact ⟨kept, grows member, same⟩

theorem InstructionChecked.mono {instruction : Instruction}
    (checked : program.InstructionChecked natives site instruction)
    (grows : natives ⊆ more) : program.InstructionChecked more site instruction := by
  refine ⟨checked.fits, ?_, ?_⟩
  · intro number args results native same found
    obtain ⟨kept, member, agrees⟩ := checked.keeps number args results native same found
    exact ⟨kept, grows member, agrees⟩
  · intro number args results inner same found
    exact (checked.inside number args results inner same found).mono grows

/-- A site is checked when its registers and all its instructions are. -/
theorem checked_of_instructions (registers : RegistersFit program.types site.function)
    (instructions : ∀ instruction ∈ site.body.instructions,
      program.InstructionChecked natives site instruction) :
    program.Checked natives site := by
  intro inner path
  rcases ReflTransGen.cases_head path with rfl | ⟨next, step, path⟩
  · refine ⟨⟨registers, fun instruction member => (instructions instruction member).fits⟩, ?_⟩
    intro number args results native invoked found
    exact (instructions _ invoked).keeps number args results native rfl found
  · cases step with
    | mk invoked found =>
        exact (instructions _ invoked).inside _ _ _ _ rfl found inner path

end Checked

section Natives

variable {types : TypeStore} {native : NativeFunction} {before after : Usage}

theorem link_keeps (success : link types native before = .ok ((), after)) :
    Keeps types after.natives native := by
  rcases link_iff.mp success with ⟨_, rfl⟩ | ⟨kept, text, found, keptText, nativeText, rfl⟩
  · exact ⟨native, List.mem_append_right _ List.mem_cons_self, rfl, rfl⟩
  · exact ⟨kept, List.mem_of_find?_eq_some found, by simpa using List.find?_some found,
      keptText.trans nativeText.symm⟩

/-- No link symbol is kept twice. -/
def SymbolsDistinct (natives : List NativeFunction) : Prop :=
  (natives.map NativeFunction.symbol).Nodup

theorem link_distinct (success : link types native before = .ok ((), after))
    (distinct : SymbolsDistinct before.natives) : SymbolsDistinct after.natives := by
  rcases link_iff.mp success with ⟨absent, rfl⟩ | ⟨_, _, _, _, _, rfl⟩
  · rw [SymbolsDistinct, List.map_append, List.nodup_append]
    refine ⟨distinct, List.nodup_singleton _, ?_⟩
    intro symbol member other last same
    obtain ⟨kept, isKept, rfl⟩ := List.mem_map.mp member
    rw [List.mem_singleton.mp last] at same
    have differs := List.find?_eq_none.mp absent kept isKept
    exact differs (beq_iff_eq.mpr same)
  · exact distinct

end Natives

theorem symbol?_not_inlined {callee : Callee} {symbol : String}
    (named : callee.symbol? = some symbol) (function : BodiedFunction) :
    callee ≠ .inlined function := by
  rintro rfl
  cases named

/-- A call adds at most a result to what is in use. -/
theorem call_natives {symbol name : String} {type : FunctionType}
    {args targets : List C.Variable} {before after : Usage} {items : List C.Item}
    (success : call symbol name type args targets before = .ok (items, after)) :
    after.natives = before.natives := by
  rcases call_success success with ⟨_, _, rfl⟩ | ⟨result, _, _, rfl⟩
  · rfl
  · unfold Usage.keeping
    split
    · rfl
    · rfl

theorem mayInvoke_of_call {callee : Callee} {symbol : String}
    (named : callee.symbol? = some symbol) {args targets : List C.Variable}
    {before after : Usage} {items : List C.Item}
    (success : call symbol callee.name callee.type args targets before = .ok (items, after))
    (chain : List CalleeNumber) (number : CalleeNumber) :
    MayInvoke chain number callee := by
  have few : callee.type.results.length ≤ 1 := by
    rcases call_success success with ⟨none, _⟩ | ⟨result, single, _⟩
    · rw [none]
      exact Nat.zero_le 1
    · rw [single]
      exact Nat.le_refl 1
  cases callee with
  | native _ => exact few
  | compiled _ => exact few
  | inlined _ => cases named

variable {program : Program}

theorem plain_checked {site : Site} {owner : C.Owner} {before after : Usage}
    {instruction : Instruction} {items : List C.Item}
    (emitted : EmitsPlain program (activationOf site.function owner) before instruction
      items after) :
    program.InstructionChecked after.natives site instruction := by
  cases emitted with
  | compute declared => exact ⟨⟨declared, nofun⟩, nofun, nofun⟩
  | branch declared => exact ⟨⟨declared, nofun⟩, nofun, nofun⟩
  | jump => exact ⟨⟨nofun, nofun⟩, nofun, nofun⟩
  | leave _ => exact ⟨⟨nofun, nofun⟩, nofun, nofun⟩
  | called found named argCount resultCount argsDeclared resultsDeclared links calls =>
      refine ⟨⟨?_, ?_⟩, ?_, ?_⟩
      · exact List.forall_mem_append.mpr ⟨argsDeclared, resultsDeclared⟩
      · rintro _ _ _ ⟨⟩
        exact ⟨_, found, argCount, resultCount, mayInvoke_of_call named calls _ _⟩
      · rintro _ _ _ native ⟨⟩ isNative
        rw [found] at isNative
        cases isNative
        cases links with
        | native success =>
            rw [call_natives calls]
            exact link_keeps success
      · rintro _ _ _ inner ⟨⟩ isInlined
        rw [found] at isInlined
        exact absurd (Option.some.inj isInlined) (symbol?_not_inlined named inner)

theorem plain_distinct {activation : Activation} {before after : Usage}
    {instruction : Instruction} {items : List C.Item}
    (emitted : EmitsPlain program activation before instruction items after)
    (distinct : SymbolsDistinct before.natives) : SymbolsDistinct after.natives := by
  cases emitted with
  | compute _ => exact distinct
  | branch _ => exact distinct
  | jump => exact distinct
  | leave _ => exact distinct
  | called _ _ _ _ _ _ links calls =>
      rw [call_natives calls]
      cases links with
      | native success => exact link_distinct success distinct
      | compiled => exact distinct

theorem emits_distinct {dormant : List CalleeNumber} {activation : Activation}
    {before after : Usage} {lines : List Line} {items : List C.Item}
    (emitted : Emits program dormant activation before lines items after)
    (distinct : SymbolsDistinct before.natives) : SymbolsDistinct after.natives := by
  induction emitted with
  | nil => exact distinct
  | start _ induction => exact induction distinct
  | plain here _ induction => exact induction (plain_distinct here distinct)
  | expanded _ _ _ _ _ _ _ _ _ _ inside later => exact later (inside distinct)

/-- The callees that are not being expanded. -/
def DormantIn (program : Program) (chain dormant : List CalleeNumber) : Prop :=
  dormant.Nodup ∧
    ∀ number, number ∈ dormant ↔ number < program.callees.length ∧ number ∉ chain

theorem dormantIn_nil : program.DormantIn [] (List.range program.callees.length) := by
  refine ⟨List.nodup_range, ?_⟩
  intro number
  rw [List.mem_range, and_iff_left List.not_mem_nil]

theorem DormantIn.erase {chain dormant : List CalleeNumber}
    (isDormant : program.DormantIn chain dormant) (number : CalleeNumber) :
    program.DormantIn (number :: chain) (dormant.erase number) := by
  refine ⟨isDormant.1.erase number, ?_⟩
  intro other
  rw [isDormant.1.mem_erase_iff, isDormant.2 other, List.mem_cons, not_or]
  exact and_left_comm

theorem mem_lines {body : Body} {instruction : Instruction}
    (member : instruction ∈ body.instructions) : .run instruction ∈ body.lines := by
  rw [Body.instructions, ← linesFrom_runs 0] at member
  obtain ⟨line, isLine, runs⟩ := List.mem_filterMap.mp member
  cases line with
  | start _ => cases runs
  | run _ =>
      cases runs
      exact isLine

/-- Every instruction among emitted lines has been checked, at any depth. -/
theorem Founded.emits_checked (founded : program.Founded) {dormant : List CalleeNumber}
    {activation : Activation} {before after : Usage} {lines : List Line}
    {items : List C.Item}
    (emitted : Emits program dormant activation before lines items after) {site : Site}
    {owner : C.Owner} (same : activation = activationOf site.function owner)
    (isDormant : program.DormantIn site.chain dormant) :
    ∀ instruction, .run instruction ∈ lines →
      program.InstructionChecked after.natives site instruction := by
  induction emitted generalizing site owner with
  | nil => exact nofun
  | start _ induction =>
      intro instruction member
      rcases List.mem_cons.mp member with first | inLater
      · cases first
      · exact induction same isDormant instruction inLater
  | plain here later induction =>
      subst same
      intro instruction member
      rcases List.mem_cons.mp member with first | inLater
      · cases first
        exact (plain_checked here).mono later.extends.natives.subset
      · exact induction rfl isDormant instruction inLater
  | expanded found argCount resultCount argsDeclared resultsDeclared allowed valid declared
      inside later insideInduction laterInduction =>
      subst same
      intro instruction member
      rcases List.mem_cons.mp member with first | inLater
      · cases first
        refine ⟨⟨?_, ?_⟩, ?_, ?_⟩
        · exact List.forall_mem_append.mpr ⟨argsDeclared, resultsDeclared⟩
        · rintro _ _ _ ⟨⟩
          exact ⟨_, found, argCount, resultCount, ((isDormant.2 _).mp allowed).2⟩
        · rintro _ _ _ native ⟨⟩ isNative
          rw [found] at isNative
          cases isNative
        · rintro _ _ _ inner ⟨⟩ isInlined
          rw [found] at isInlined
          cases isInlined
          have registers := founded.registersExist (List.mem_of_getElem? found) rfl
          have fit := (registersFit_iff founded.ordered registers _).mp ⟨valid, _, declared⟩
          have checked : program.Checked _ ⟨_ :: site.chain, _⟩ :=
            checked_of_instructions fit fun instruction member =>
              insideInduction rfl (isDormant.erase _) instruction (mem_lines member)
          exact checked.mono later.extends.natives.subset
      · exact laterInduction rfl isDormant instruction inLater

/-- What is known of a compiled function once it is defined. -/
structure DefinitionChecked (program : Program) (natives : List NativeFunction)
    (function : BodiedFunction) : Prop where
  fewResults : function.type.results.length ≤ 1
  head : program.types.SpellableFunction function.type
  sites : program.Checked natives ⟨[], function⟩

theorem Founded.defines_checked (founded : program.Founded) {function : BodiedFunction}
    (member : function ∈ program.compiled) {before after : List NativeFunction}
    {definition : C.Definition} (defines : Defines program function before definition after) :
    program.DefinitionChecked after function ∧ before ⊆ after ∧
      (SymbolsDistinct before → SymbolsDistinct after) := by
  cases defines with
  | mk fewResults valid emitted _ headed declared _ =>
      have registers := founded.registersExist (mem_compiled_iff.mp member) rfl
      have fit := (registersFit_iff founded.ordered registers _).mp ⟨valid, _, declared⟩
      have site : program.Checked _ ⟨[], function⟩ :=
        checked_of_instructions fit fun instruction isInstruction =>
          founded.emits_checked emitted rfl dormantIn_nil instruction (mem_lines isInstruction)
      exact ⟨⟨fewResults, (founded.declareCompiled_iff member).mp ⟨_, headed⟩, site⟩,
        emitted.extends.natives.subset, emits_distinct emitted⟩

theorem Founded.definitions_checked (founded : program.Founded)
    {functions : List BodiedFunction} (members : functions ⊆ program.compiled)
    {before after : List NativeFunction} {definitions : List C.Definition}
    (success : Lowering.definitions program before functions = .ok (definitions, after)) :
    (∀ function ∈ functions, program.DefinitionChecked after function) ∧ before ⊆ after ∧
      (SymbolsDistinct before → SymbolsDistinct after) := by
  induction functions generalizing before definitions with
  | nil =>
      cases success
      exact ⟨nofun, List.Subset.refl _, id⟩
  | cons function functions induction =>
      obtain ⟨memberFirst, membersLater⟩ := List.cons_subset.mp members
      obtain ⟨⟨first, used⟩, firstSuccess, success⟩ := Success.bind_iff.mp success
      obtain ⟨⟨others, all⟩, othersSuccess, success⟩ := Success.bind_iff.mp success
      cases success
      obtain ⟨firstChecked, firstGrows, firstDistinct⟩ :=
        founded.defines_checked memberFirst (definition_defines firstSuccess)
      obtain ⟨othersChecked, othersGrow, othersDistinct⟩ :=
        induction membersLater othersSuccess
      refine ⟨List.forall_mem_cons.mpr ⟨?_, othersChecked⟩,
        List.Subset.trans firstGrows othersGrow, othersDistinct ∘ firstDistinct⟩
      exact ⟨firstChecked.fewResults, firstChecked.head, firstChecked.sites.mono othersGrow⟩

/-- Every native that is called from somewhere is kept in the end. -/
theorem keeps_of_checked {natives : List NativeFunction}
    (checked : ∀ function ∈ program.compiled, program.DefinitionChecked natives function)
    {native : NativeFunction} (calls : program.CallsNative native) :
    Keeps program.types natives native := by
  obtain ⟨site, number, args, results, ⟨function, member, path⟩, invoked, found⟩ := calls
  exact ((checked function member).sites site path).2 number args results native invoked found

/-- What is known of the natives behind the prototypes of a source. -/
theorem Founded.source_checked (founded : program.Founded) {source : C.Source}
    (success : program.source = .ok source) :
    ∃ definitions natives,
      Lowering.definitions program [] program.compiled = .ok (definitions, natives) ∧
      natives.mapM (fun native =>
        program.types.declareFunction native.type (.name native.symbol)) =
          .ok source.linked ∧
      SymbolsDistinct natives ∧
      ∀ function ∈ program.compiled, program.DefinitionChecked natives function := by
  obtain ⟨⟨definitions, natives⟩, defined, success⟩ := Success.bind_iff.mp success
  obtain ⟨linked, declared, same⟩ := Success.bind_iff.mp success
  cases same
  obtain ⟨checked, _, keepsDistinct⟩ :=
    founded.definitions_checked (List.Subset.refl _) defined
  exact ⟨definitions, natives, defined, declared, keepsDistinct List.nodup_nil, checked⟩

/-- A program whose source is generated can be lowered. -/
theorem Founded.lowerable_of_source (founded : program.Founded) {source : C.Source}
    (success : program.source = .ok source) : program.Lowerable := by
  obtain ⟨_, natives, _, declared, distinct, checked⟩ := founded.source_checked success
  refine ⟨fun function member => (checked function member).fewResults,
    fun function member => (checked function member).head, ?_, ?_, ?_⟩
  · rintro site ⟨function, member, path⟩
    exact ((checked function member).sites site path).1
  · intro native calls
    obtain ⟨kept, isKept, _, sameText⟩ := keeps_of_checked checked calls
    obtain ⟨prototype, isDeclared⟩ := Success.mapM_succeeds_iff.mp ⟨_, declared⟩ kept isKept
    rw [prototypeText_ok_iff.mpr ⟨prototype, isDeclared, rfl⟩] at sameText
    obtain ⟨own, ownDeclared, _⟩ := prototypeText_ok_iff.mp sameText.symm
    obtain ⟨_, _, _, _, _, _, found⟩ := calls
    exact (founded.ordered.declaresFunction_iff
      (founded.typeExists (List.mem_of_getElem? found)) _).mp ⟨own, ownDeclared⟩
  · intro first second firstCalled secondCalled sameSymbol
    obtain ⟨keptFirst, isFirst, firstSymbol, firstText⟩ :=
      keeps_of_checked checked firstCalled
    obtain ⟨keptSecond, isSecond, secondSymbol, secondText⟩ :=
      keeps_of_checked checked secondCalled
    have same : keptFirst = keptSecond := List.inj_on_of_nodup_map distinct isFirst isSecond
      (firstSymbol.trans (sameSymbol.trans secondSymbol.symm))
    rw [← firstText, ← secondText, same]

end CBackend.Program
