import CBackend.Proofs.Lowering.Prototypes

/-!
# Natives in use

The natives that a function refers to can be listed without lowering it: its
instructions are read in order, and in the place of an invocation of an inline
function stand the references of that function.  The list is a relation,
because inline functions may invoke each other without end; where it exists
it is unique.

Lowering keeps a native when its link symbol is new.  All definitions share
what is kept, so in the end it is the list of all references, one function
after the other, of which only the first to each symbol is left.
-/

namespace CBackend

namespace Program

open Relation (ReflTransGen)

/-- The natives that instructions refer to, in order, through any depth of
inline functions. -/
inductive Refers (program : Program) : List Instruction → List NativeFunction → Prop where
  | done : Refers program [] []
  | other {instruction : Instruction} {later : List Instruction}
      {natives : List NativeFunction}
      (noInvocation : ∀ number args results, instruction ≠ .invoke number args results)
      (rest : Refers program later natives) : Refers program (instruction :: later) natives
  | compiled {number : CalleeNumber} {args results : List RegisterNumber}
      {later : List Instruction} {natives : List NativeFunction} {function : BodiedFunction}
      (found : program.callees[number]? = some (.compiled function))
      (rest : Refers program later natives) :
      Refers program (.invoke number args results :: later) natives
  | native {number : CalleeNumber} {args results : List RegisterNumber}
      {later : List Instruction} {natives : List NativeFunction} {native : NativeFunction}
      (found : program.callees[number]? = some (.native native))
      (rest : Refers program later natives) :
      Refers program (.invoke number args results :: later) (native :: natives)
  | inlined {number : CalleeNumber} {args results : List RegisterNumber}
      {later : List Instruction} {inside natives : List NativeFunction}
      {function : BodiedFunction}
      (found : program.callees[number]? = some (.inlined function))
      (inner : Refers program function.body.instructions inside)
      (rest : Refers program later natives) :
      Refers program (.invoke number args results :: later) (inside ++ natives)

section Refers

variable {program : Program} {instructions : List Instruction} {natives : List NativeFunction}

theorem Refers.unique (refers : program.Refers instructions natives)
    {others : List NativeFunction} (again : program.Refers instructions others) :
    others = natives := by
  induction refers generalizing others with
  | done =>
      cases again
      rfl
  | other noInvocation _ induction =>
      cases again with
      | other _ rest => exact induction rest
      | compiled _ _ => exact absurd rfl (noInvocation _ _ _)
      | native _ _ => exact absurd rfl (noInvocation _ _ _)
      | inlined _ _ _ => exact absurd rfl (noInvocation _ _ _)
  | compiled found _ induction =>
      cases again with
      | other noInvocation _ => exact absurd rfl (noInvocation _ _ _)
      | compiled _ rest => exact induction rest
      | native isFound _ => cases found.symm.trans isFound
      | inlined isFound _ _ => cases found.symm.trans isFound
  | native found _ induction =>
      cases again with
      | other noInvocation _ => exact absurd rfl (noInvocation _ _ _)
      | compiled isFound _ => cases found.symm.trans isFound
      | native isFound rest =>
          cases found.symm.trans isFound
          rw [induction rest]
      | inlined isFound _ _ => cases found.symm.trans isFound
  | inlined found _ _ insideInduction induction =>
      cases again with
      | other noInvocation _ => exact absurd rfl (noInvocation _ _ _)
      | compiled isFound _ => cases found.symm.trans isFound
      | native isFound _ => cases found.symm.trans isFound
      | inlined isFound inner rest =>
          cases found.symm.trans isFound
          rw [insideInduction inner, induction rest]

/-- What is referred to is invoked, in the function itself or in one that it
leads to. -/
theorem Refers.invoked (refers : program.Refers instructions natives)
    {function : BodiedFunction} (part : instructions ⊆ function.body.instructions) :
    ∀ native ∈ natives, ∃ inner, ReflTransGen program.InvokesInline function inner ∧
      program.InvokesNative inner native := by
  induction refers generalizing function with
  | done => exact nofun
  | other _ _ induction => exact induction (List.cons_subset.mp part).2
  | compiled _ _ induction => exact induction (List.cons_subset.mp part).2
  | native found _ induction =>
      obtain ⟨first, others⟩ := List.cons_subset.mp part
      intro native member
      rcases List.mem_cons.mp member with rfl | later
      · exact ⟨function, .refl, _, _, _, first, found⟩
      · exact induction others native later
  | inlined found _ _ insideInduction induction =>
      obtain ⟨first, others⟩ := List.cons_subset.mp part
      intro native member
      rcases List.mem_append.mp member with here | later
      · obtain ⟨inner, path, invokes⟩ := insideInduction (List.Subset.refl _) native here
        exact ⟨inner, .head ⟨_, _, _, first, found⟩ path, invokes⟩
      · exact induction others native later

/-- What an invocation contributes to the references. -/
theorem Refers.contributes (refers : program.Refers instructions natives)
    {number : CalleeNumber} {args results : List RegisterNumber}
    (invoked : .invoke number args results ∈ instructions) :
    (∀ native, program.callees[number]? = some (.native native) → native ∈ natives) ∧
      ∀ inner, program.callees[number]? = some (.inlined inner) →
        ∃ inside, program.Refers inner.body.instructions inside ∧ inside ⊆ natives := by
  induction refers with
  | done => cases invoked
  | other noInvocation _ induction =>
      rcases List.mem_cons.mp invoked with here | later
      · exact absurd here.symm (noInvocation _ _ _)
      · exact induction later
  | compiled found _ induction =>
      rcases List.mem_cons.mp invoked with here | later
      · cases here
        exact ⟨fun _ isFound => (nomatch found.symm.trans isFound),
          fun _ isFound => (nomatch found.symm.trans isFound)⟩
      · exact induction later
  | native found _ induction =>
      rcases List.mem_cons.mp invoked with here | later
      · cases here
        refine ⟨?_, fun _ isFound => (nomatch found.symm.trans isFound)⟩
        intro native isFound
        cases found.symm.trans isFound
        exact List.mem_cons_self
      · obtain ⟨natives, inlines⟩ := induction later
        refine ⟨fun native isFound => List.mem_cons_of_mem _ (natives native isFound), ?_⟩
        intro inner isFound
        obtain ⟨inside, refers, part⟩ := inlines inner isFound
        exact ⟨inside, refers, List.subset_cons_of_subset _ part⟩
  | inlined found inner _ _ induction =>
      rcases List.mem_cons.mp invoked with here | later
      · cases here
        refine ⟨fun _ isFound => (nomatch found.symm.trans isFound), ?_⟩
        intro function isFound
        cases found.symm.trans isFound
        exact ⟨_, inner, List.subset_append_left _ _⟩
      · obtain ⟨natives, inlines⟩ := induction later
        refine ⟨fun native isFound => List.mem_append_right _ (natives native isFound), ?_⟩
        intro inner isFound
        obtain ⟨inside, refers, part⟩ := inlines inner isFound
        exact ⟨inside, refers, List.subset_append_of_subset_right _ part⟩

/-- A function refers to exactly the natives invoked in it or in functions
that it leads to. -/
theorem Refers.mem_iff {function : BodiedFunction}
    (refers : program.Refers function.body.instructions natives) {native : NativeFunction} :
    native ∈ natives ↔ ∃ inner, ReflTransGen program.InvokesInline function inner ∧
      program.InvokesNative inner native := by
  constructor
  · exact refers.invoked (List.Subset.refl _) native
  · rintro ⟨inner, path, number, args, results, invoked, found⟩
    induction path using ReflTransGen.head_induction_on generalizing natives with
    | refl => exact (refers.contributes invoked).1 native found
    | head step _ induction =>
        obtain ⟨_, _, _, isInvoked, isInlined⟩ := step
        obtain ⟨inside, insideRefers, part⟩ := (refers.contributes isInvoked).2 _ isInlined
        exact part (induction insideRefers)

end Refers

end Program

namespace Lowering

/-- Natives with one link symbol. -/
def sameSymbol (first second : NativeFunction) : Bool := first.symbol == second.symbol

/-- The natives that are kept after one more reference. -/
def keepNative (kept : List NativeFunction) (native : NativeFunction) : List NativeFunction :=
  if kept.any (sameSymbol native) then kept else kept ++ [native]

theorem link_natives {types : TypeStore} {native : NativeFunction} {before after : Usage}
    (success : link types native before = .ok ((), after)) :
    after.natives = keepNative before.natives native := by
  unfold keepNative
  rcases link_iff.mp success with ⟨absent, rfl⟩ | ⟨kept, _, present, _, _, rfl⟩
  · have unknown : before.natives.any (sameSymbol native) = false := by
      rw [List.any_eq_false]
      intro other member same
      apply List.find?_eq_none.mp absent other member
      exact beq_iff_eq.mpr (beq_iff_eq.mp same).symm
    rw [unknown]
    rfl
  · have known : after.natives.any (sameSymbol native) = true := by
      rw [List.any_eq_true]
      have named : kept.symbol = native.symbol := by simpa using List.find?_some present
      exact ⟨kept, List.mem_of_find?_eq_some present, beq_iff_eq.mpr named.symm⟩
    rw [known]
    rfl

/-- Of a list of references, the first to each new symbol is kept. -/
theorem foldl_keepNative (references kept : List NativeFunction) :
    references.foldl keepNative kept = kept ++
      (references.filter fun native => !kept.any (sameSymbol native)).eraseDupsBy
        sameSymbol := by
  induction references generalizing kept with
  | nil => simp
  | cons native references induction =>
      rw [List.foldl_cons, keepNative]
      split
      · rename_i known
        rw [induction, List.filter_cons_of_neg (by simp [known])]
      · rename_i unknown
        rw [induction, List.filter_cons_of_pos (by simpa using unknown), List.eraseDupsBy_cons,
          List.filter_filter]
        simp [Bool.and_comm]

theorem foldl_keepNative_nil (references : List NativeFunction) :
    references.foldl keepNative [] = references.eraseDupsBy sameSymbol := by
  simp [foldl_keepNative]

theorem mem_of_keepNative {native : NativeFunction} {references kept : List NativeFunction}
    (member : native ∈ references.foldl keepNative kept) :
    native ∈ kept ∨ native ∈ references := by
  induction references generalizing kept with
  | nil => exact .inl member
  | cons first references induction =>
      rcases induction member with before | later
      · unfold keepNative at before
        split at before
        · exact .inl before
        · rcases List.mem_append.mp before with old | new
          · exact .inl old
          · exact .inr (List.mem_cons.mpr (.inl (List.mem_singleton.mp new)))
      · exact .inr (List.mem_cons_of_mem _ later)

section Emission

variable {program : Program} {activation : Activation} {before after : Usage}
  {items : List C.Item}

theorem EmitsPlain.refers {instruction : Instruction}
    (emitted : EmitsPlain program activation before instruction items after) :
    ∃ natives, after.natives = natives.foldl keepNative before.natives ∧
      ∀ later rest, program.Refers later rest →
        program.Refers (instruction :: later) (natives ++ rest) := by
  cases emitted with
  | compute _ => exact ⟨[], rfl, fun _ _ rest => .other nofun rest⟩
  | branch _ => exact ⟨[], rfl, fun _ _ rest => .other nofun rest⟩
  | jump => exact ⟨[], rfl, fun _ _ rest => .other nofun rest⟩
  | leave _ => exact ⟨[], rfl, fun _ _ rest => .other nofun rest⟩
  | called found _ _ _ _ _ links calls =>
      rw [Program.call_natives calls]
      cases links with
      | native linked => exact ⟨[_], link_natives linked, fun _ _ rest => .native found rest⟩
      | compiled => exact ⟨[], rfl, fun _ _ rest => .compiled found rest⟩

/-- Emitted lines have references, and these decide what is kept. -/
theorem Emits.refers {dormant : List CalleeNumber} {lines : List Line}
    (emitted : Emits program dormant activation before lines items after) :
    ∃ natives, program.Refers (lines.filterMap Line.run?) natives ∧
      after.natives = natives.foldl keepNative before.natives := by
  induction emitted with
  | nil => exact ⟨[], .done, rfl⟩
  | start _ induction => exact induction
  | plain here _ induction =>
      obtain ⟨first, firstKept, firstRefers⟩ := here.refers
      obtain ⟨rest, refers, kept⟩ := induction
      refine ⟨first ++ rest, firstRefers _ _ refers, ?_⟩
      rw [List.foldl_append, ← firstKept, kept]
  | expanded found _ _ _ _ _ _ _ _ _ insideInduction induction =>
      obtain ⟨inside, insideRefers, insideKept⟩ := insideInduction
      obtain ⟨rest, refers, kept⟩ := induction
      rw [Body.lines, linesFrom_runs] at insideRefers
      refine ⟨inside ++ rest, .inlined found insideRefers refers, ?_⟩
      rw [List.foldl_append, kept, insideKept]
      rfl

end Emission

/-- The references of some functions, one list for each. -/
abbrev ReferencesOf (program : Program) :
    List BodiedFunction → List (List NativeFunction) → Prop :=
  List.Forall₂ fun function natives => program.Refers function.body.instructions natives

theorem definitions_refer {program : Program} {functions : List BodiedFunction}
    {before after : List NativeFunction} {definitions : List C.Definition}
    (success : Lowering.definitions program before functions = .ok (definitions, after)) :
    ∃ references, ReferencesOf program functions references ∧
      after = references.flatten.foldl keepNative before := by
  induction functions generalizing before definitions with
  | nil =>
      cases success
      exact ⟨[], .nil, rfl⟩
  | cons function functions induction =>
      obtain ⟨⟨first, used⟩, firstSuccess, success⟩ := Success.bind_iff.mp success
      obtain ⟨⟨others, all⟩, othersSuccess, success⟩ := Success.bind_iff.mp success
      cases success
      obtain ⟨rest, refer, rfl⟩ := induction othersSuccess
      cases definition_defines firstSuccess with
      | mk _ _ emitted _ _ _ _ =>
          obtain ⟨natives, refers, kept⟩ := emitted.refers
          rw [Body.lines, linesFrom_runs] at refers
          refine ⟨natives :: rest, .cons refers refer, ?_⟩
          rw [List.flatten_cons, List.foldl_append, kept]

end Lowering

/-- The prototypes of what is linked stand first, and an empty line may follow
them. -/
theorem C.Source.text_eq (source : C.Source) :
    ∃ gap, (gap = "" ∨ gap = "\n") ∧ source.text =
      String.join (source.linked.map fun prototype => "extern " ++ prototype.text ++ ";\n") ++
        gap ++ C.Source.text ⟨[], source.definitions⟩ := by
  have alone : C.Source.text ⟨[], source.definitions⟩ =
      "\n".intercalate (source.definitions.map C.Definition.text) := by
    simp [C.Source.text]
  rw [alone, C.Source.text]
  split
  · exact ⟨"", .inl rfl, by rw [String.append_empty]⟩
  · exact ⟨"\n", .inr rfl, rfl⟩

namespace Program

open Lowering (sameSymbol ReferencesOf)

/-- The references of functions are determined by the program. -/
theorem referencesOf_unique {program : Program} {functions : List BodiedFunction}
    {references others : List (List NativeFunction)}
    (refer : ReferencesOf program functions references)
    (again : ReferencesOf program functions others) : others = references :=
  List.right_unique_forall₂' (fun _ _ _ first second => second.unique first) again refer

theorem mem_references_iff {program : Program} {references : List (List NativeFunction)}
    (refer : ReferencesOf program program.compiled references) {native : NativeFunction} :
    native ∈ references.flatten ↔ program.CallsNative native := by
  rw [callsNative_iff, List.mem_flatten]
  constructor
  · rintro ⟨natives, isList, member⟩
    obtain ⟨function, isCompiled, refers⟩ := Success.related_of_mem refer.flip natives isList
    exact ⟨function, isCompiled, refers.mem_iff.mp member⟩
  · rintro ⟨function, isCompiled, called⟩
    obtain ⟨natives, isList, refers⟩ := Success.related_of_mem refer function isCompiled
    exact ⟨natives, isList, refers.mem_iff.mpr called⟩

/-- When a source is generated, the references of all compiled functions exist
and are unique, and they are the natives that are called from somewhere.  The
source begins with prototypes: those of the references, in order, of which
only the first to each link symbol is left.  So no symbol stands there twice,
and a symbol stands there exactly if a native of it is called. -/
theorem externs_exactly_in_use (name : String) (pointerSize : PointerSize)
    (operations : List Operation) {source : C.Source}
    (success : (history name pointerSize operations).source = .ok source) :
    let program := history name pointerSize operations
    ∃ references : List (List NativeFunction),
      (∀ others, ReferencesOf program program.compiled others ↔ others = references) ∧
      (references.flatten.eraseDupsBy sameSymbol).mapM (fun native =>
        program.types.declareFunction native.type (.name native.symbol)) = .ok source.linked ∧
      (source.linked.map C.Declaration.symbol).Nodup ∧
      (∀ symbol, symbol ∈ source.linked.map C.Declaration.symbol ↔
        ∃ native, program.CallsNative native ∧ native.symbol = symbol) ∧
      (∀ native, native ∈ references.flatten ↔ program.CallsNative native) ∧
      ∃ gap, (gap = "" ∨ gap = "\n") ∧ source.text =
        String.join (source.linked.map fun prototype => "extern " ++ prototype.text ++ ";\n") ++
          gap ++ C.Source.text ⟨[], source.definitions⟩ := by
  intro program
  have founded : program.Founded := history_founded name pointerSize operations
  obtain ⟨definitions, natives, defined, declared, distinct, checked⟩ :=
    founded.source_checked success
  obtain ⟨references, refer, kept⟩ := Lowering.definitions_refer defined
  have firsts : natives = references.flatten.eraseDupsBy sameSymbol :=
    kept.trans (Lowering.foldl_keepNative_nil _)
  have symbols : source.linked.map C.Declaration.symbol = natives.map NativeFunction.symbol :=
    TypeStore.symbols_eq declared
  refine ⟨references, ?_, firsts ▸ declared, symbols ▸ distinct, ?_,
    fun _ => mem_references_iff refer, source.text_eq⟩
  · intro others
    constructor
    · exact referencesOf_unique refer
    · rintro rfl
      exact refer
  · intro symbol
    rw [symbols, List.mem_map]
    constructor
    · rintro ⟨native, member, same⟩
      refine ⟨native, (mem_references_iff refer).mp ?_, same⟩
      exact (Lowering.mem_of_keepNative (kept ▸ member)).resolve_left List.not_mem_nil
    · rintro ⟨native, called, rfl⟩
      obtain ⟨keptNative, isKept, same, _⟩ := keeps_of_checked checked called
      exact ⟨keptNative, isKept, same⟩

/-- Two compiled functions call natives, one of them through an inline
function; two natives share a symbol and one is idle. -/
def reportOperations : List Operation :=
  [.types (.intern ⟨0o11⟩),
    .callee (.native ⟨"tick", ⟨[], []⟩, "clock_tick"⟩),
    .callee (.native ⟨"log", ⟨[⟨"x", 0⟩], []⟩, "emit"⟩),
    .callee (.native ⟨"trace", ⟨[⟨"x", 0⟩], []⟩, "emit"⟩),
    .callee (.native ⟨"spare", ⟨[], []⟩, "spare"⟩),
    .callee (.inlined ⟨"report", ⟨[⟨"x", 0⟩], []⟩, ⟨[0], [[.invoke 2 [0] [], .leave]]⟩⟩),
    .callee (.compiled ⟨"f", ⟨[], []⟩, ⟨[0], [[.invoke 4 [0] [], .invoke 0 [] [], .leave]]⟩⟩),
    .callee (.compiled ⟨"g", ⟨[], []⟩, ⟨[0], [[.invoke 1 [0] [], .leave]]⟩⟩)]

theorem report_externs : ∃ source,
    (history "report" .eight reportOperations).source = .ok source ∧
    source.linked.map C.Declaration.text = ["void emit(uint8_t x)", "void clock_tick(void)"] ∧
    ∀ native, (history "report" .eight reportOperations).CallsNative native →
      native.symbol ∈ ["emit", "clock_tick"] := by
  have texts : (history "report" .eight reportOperations).source.map
      (fun source => source.linked.map C.Declaration.text) =
        .ok ["void emit(uint8_t x)", "void clock_tick(void)"] := by with_unfolding_all rfl
  have symbols : (history "report" .eight reportOperations).source.map
      (fun source => source.linked.map C.Declaration.symbol) =
        .ok ["emit", "clock_tick"] := by with_unfolding_all rfl
  cases generated : (history "report" .eight reportOperations).source with
  | error cause =>
      rw [generated] at texts
      cases texts
  | ok source =>
      rw [generated] at texts symbols
      refine ⟨source, rfl, Except.ok.inj texts, ?_⟩
      intro native called
      obtain ⟨_, _, _, _, inUse, _⟩ := externs_exactly_in_use "report" .eight reportOperations
        generated
      have listed : source.linked.map C.Declaration.symbol = ["emit", "clock_tick"] :=
        Except.ok.inj symbols
      rw [← listed]
      exact (inUse native.symbol).mpr ⟨native, called, rfl⟩

end Program

end CBackend
