import CBackend.Proofs.Lowering.CheckedSites
import CBackend.Proofs.Lowering.LocalNames

/-!
# Which programs are lowered

A program that can be lowered is lowered: no step of lowering refuses it, at
whatever depth of expansion.  Each step is shown to succeed from any usage
that lowering the program can have built up, and to leave such a usage.
-/

namespace CBackend

theorem Program.Lowerable.native_declared {program : Program} (lowerable : program.Lowerable)
    (founded : program.Founded) {native : NativeFunction}
    (calls : program.CallsNative native) :
    ∃ prototype, program.types.declareFunction native.type (.name native.symbol) =
      .ok prototype := by
  have spellable := lowerable.natives native calls
  obtain ⟨_, _, _, _, _, _, found⟩ := calls
  exact (founded.ordered.declaresFunction_iff
    (founded.typeExists (List.mem_of_getElem? found)) _).mpr spellable

namespace Lowering

/-- A step succeeds whenever what is in use is good, and leaves it good. -/
def Succeeds (good : Usage → Prop) (step : Lower α) : Prop :=
  ∀ before, good before → ∃ value after, step before = .ok (value, after) ∧ good after

namespace Succeeds

variable {good : Usage → Prop}

theorem pure (value : α) : Succeeds good (Pure.pure value) :=
  fun before holds => ⟨value, before, rfl, holds⟩

theorem bind {step : Lower α} {next : α → Lower β} (first : Succeeds good step)
    (later : ∀ value, Succeeds good (next value)) : Succeeds good (step >>= next) := by
  intro before holds
  obtain ⟨item, between, success, holdsBetween⟩ := first before holds
  obtain ⟨value, after, laterSuccess, holdsAfter⟩ := later item between holdsBetween
  exact ⟨value, after, bind_success_iff.mpr ⟨item, between, success, laterSuccess⟩,
    holdsAfter⟩

/-- A part that only may fail, and does not. -/
theorem lift {step : Except LoweringError α} {next : α → Lower β} {item : α}
    (found : step = .ok item) (later : Succeeds good (next item)) :
    Succeeds good ((liftM step : Lower α) >>= next) := by
  intro before holds
  obtain ⟨value, after, success, holdsAfter⟩ := later before holds
  exact ⟨value, after, lift_success_iff.mpr ⟨item, found, success⟩, holdsAfter⟩

theorem mapM {action : α → Lower β} {items : List α}
    (each : ∀ item ∈ items, Succeeds good (action item)) :
    Succeeds good (items.mapM action) := by
  induction items with
  | nil =>
      rw [List.mapM_nil]
      exact pure []
  | cons item items induction =>
      obtain ⟨first, later⟩ := List.forall_mem_cons.mp each
      rw [List.mapM_cons]
      refine first.bind fun value => (induction later).bind fun values => ?_
      exact pure (value :: values)

end Succeeds

section Registers

variable {activation : Activation}

theorem copiesIn_total {sources : List C.Variable}
    (enough : sources.length ≤ activation.body.registers.length) :
    ∃ items, copiesIn activation sources = .ok items := by
  apply Success.mapM_total
  rintro ⟨source, number⟩ member
  have inside : number < sources.length := List.snd_lt_of_mem_zipIdx member
  have declared := Activation.register_success_iff.mpr
    ⟨Nat.lt_of_lt_of_le inside enough, rfl⟩
  exact ⟨_, Success.bind_iff.mpr ⟨_, declared, rfl⟩⟩

theorem copiesOut_total {targets : List C.Variable}
    (enough : activation.firstResult + targets.length ≤ activation.body.registers.length) :
    ∃ items, copiesOut activation targets = .ok items := by
  apply Success.mapM_total
  rintro ⟨target, index⟩ member
  have inside : index < targets.length := List.snd_lt_of_mem_zipIdx member
  have declared := Activation.register_success_iff.mpr
    ⟨Nat.lt_of_lt_of_le (Nat.add_lt_add_left inside activation.firstResult) enough, rfl⟩
  exact ⟨_, Success.bind_iff.mpr ⟨_, declared, rfl⟩⟩

theorem finish_total (few : activation.type.results.length ≤ 1)
    (enough : activation.type.params.length + activation.type.results.length ≤
      activation.body.registers.length) :
    ∃ item, activation.finish = .ok item := by
  unfold Activation.finish
  rcases results : activation.type.results with _ | ⟨single, _ | ⟨second, others⟩⟩
  · exact ⟨_, rfl⟩
  · rw [results] at enough
    have declared := Activation.register_success_iff.mpr ⟨enough, rfl⟩
    exact ⟨_, Success.bind_iff.mpr ⟨_, declared, rfl⟩⟩
  · rw [results] at few
    exact absurd few (by simp)

theorem leave_total (few : activation.owner = .function → activation.type.results.length ≤ 1)
    (enough : activation.type.params.length + activation.type.results.length ≤
      activation.body.registers.length) :
    ∃ item, activation.leave = .ok item := by
  unfold Activation.leave
  split
  · rename_i isFunction
    exact finish_total (few isFunction) enough
  · exact ⟨_, rfl⟩

end Registers

/-- What lowering the program can have met: natives that are called, and
results of types that can be declared. -/
structure Expected (program : Program) (usage : Usage) : Prop where
  natives : ∀ native ∈ usage.natives, program.CallsNative native
  results : ∀ entry ∈ usage.results,
    entry.2 < program.types.size ∧ program.types.Spellable entry.2

section Lowerable

variable {program : Program}

theorem call_succeeds {symbol name : String} {type : FunctionType}
    {args targets : List C.Variable} (few : type.results.length ≤ 1)
    (expected : ∀ result ∈ type.results,
      result.type < program.types.size ∧ program.types.Spellable result.type) :
    Succeeds (Expected program) (call symbol name type args targets) := by
  intro before good
  unfold call
  rcases results : type.results with _ | ⟨single, _ | ⟨second, others⟩⟩
  · exact ⟨_, before, rfl, good⟩
  · refine ⟨_, before.keeping name single.type, rfl, ?_⟩
    unfold Usage.keeping
    split
    · exact good
    · refine ⟨good.natives, ?_⟩
      intro entry member
      rcases List.mem_append.mp member with old | new
      · exact good.results entry old
      · rw [List.mem_singleton.mp new]
        exact expected single (results ▸ List.mem_cons_self)
  · rw [results] at few
    exact absurd few (by simp)

theorem link_succeeds (founded : program.Founded) (lowerable : program.Lowerable)
    {native : NativeFunction} (calls : program.CallsNative native) :
    Succeeds (Expected program) (link program.types native) := by
  intro before good
  cases found : before.natives.find? (·.symbol == native.symbol) with
  | none =>
      refine ⟨(), _, link_iff.mpr (.inl ⟨found, rfl⟩), ?_, good.results⟩
      intro other member
      rcases List.mem_append.mp member with old | new
      · exact good.natives other old
      · rw [List.mem_singleton.mp new]
        exact calls
  | some kept =>
      have keptCalled := good.natives kept (List.mem_of_find?_eq_some found)
      have sameSymbol : kept.symbol = native.symbol := by
        simpa using List.find?_some found
      have sameText := lowerable.symbols kept native keptCalled calls sameSymbol
      obtain ⟨prototype, declared⟩ := lowerable.native_declared founded calls
      have nativeText := prototypeText_ok_iff.mpr ⟨prototype, declared, rfl⟩
      exact ⟨(), before, link_iff.mpr (.inr ⟨kept, _, found, sameText.trans nativeText,
        nativeText, rfl⟩), good⟩

theorem results_expected (founded : program.Founded) {callee : Callee}
    (member : callee ∈ program.callees)
    (spellable : program.types.SpellableFunction callee.type) :
    ∀ result ∈ callee.type.results,
      result.type < program.types.size ∧ program.types.Spellable result.type := by
  intro result isResult
  have mentioned : result.type ∈ callee.type.mentions :=
    List.mem_map_of_mem (List.mem_append_right _ isResult)
  exact ⟨founded.typeExists member result.type mentioned, spellable.2 result.type mentioned⟩

theorem nextExpansion_succeeds : Succeeds (Expected program) nextExpansion :=
  fun before good => ⟨before.expansions, before.expanding, rfl, good.natives, good.results⟩

/-- Inline functions invoked at a site are expanded without failure. -/
def ExpandsAt (program : Program) (site : Site) (expander : Expander) : Prop :=
  ∀ number args results inner sources targets,
    Instruction.invoke number args results ∈ site.body.instructions →
    program.callees[number]? = some (.inlined inner) →
    sources.length = inner.type.params.length →
    targets.length = inner.type.results.length →
      Succeeds (Expected program) (expander number inner sources targets)

variable (founded : program.Founded) (lowerable : program.Lowerable)

include founded lowerable

theorem invoke_succeeds {site : Site} (reached : program.Reaches site) {owner : C.Owner}
    {expander : Expander} (expands : ExpandsAt program site expander)
    {number : CalleeNumber} {args results : List RegisterNumber}
    (invoked : Instruction.invoke number args results ∈ site.body.instructions) :
    Succeeds (Expected program)
      (invoke program expander (activationOf site.function owner) number args results) := by
  obtain ⟨declared, invocations⟩ := (lowerable.sites site reached).instructions _ invoked
  obtain ⟨argsDeclared, resultsDeclared⟩ := List.forall_mem_append.mp declared
  obtain ⟨callee, found, argCount, resultCount, mayInvoke⟩ :=
    invocations number args results rfl
  have member := List.mem_of_getElem? found
  have sources : (activationOf site.function owner).registers args = .ok _ :=
    Activation.registers_success_iff.mpr ⟨argsDeclared, rfl⟩
  have targets : (activationOf site.function owner).registers results = .ok _ :=
    Activation.registers_success_iff.mpr ⟨resultsDeclared, rfl⟩
  unfold invoke
  simp only [found, argCount, resultCount, ne_eq, not_true_eq_false, if_false]
  refine .lift sources (.lift targets ?_)
  cases callee with
  | native native =>
      have calls : program.CallsNative native :=
        ⟨site, number, args, results, reached, invoked, found⟩
      refine (link_succeeds founded lowerable calls).bind fun _ => ?_
      exact call_succeeds mayInvoke
        (results_expected founded member (lowerable.natives native calls))
  | compiled function =>
      have head := lowerable.heads function (Program.mem_compiled_iff.mpr member)
      exact call_succeeds mayInvoke (results_expected founded member head)
  | inlined function =>
      exact expands number args results function _ _ invoked found
        (by rw [List.length_map, argCount]; rfl) (by rw [List.length_map, resultCount]; rfl)

theorem instruction_succeeds {site : Site} (reached : program.Reaches site) {owner : C.Owner}
    (few : owner = .function → site.function.type.results.length ≤ 1)
    {expander : Expander} (expands : ExpandsAt program site expander)
    {instruction : Instruction} (member : instruction ∈ site.body.instructions) :
    Succeeds (Expected program) (Lowering.instruction program expander
      (activationOf site.function owner) instruction) := by
  obtain ⟨registers, instructions⟩ := lowerable.sites site reached
  have declared : ∀ register ∈ instruction.registers,
      (activationOf site.function owner).register register =
        .ok ((activationOf site.function owner).slot register) :=
    fun register isOperand => Activation.register_success_iff.mpr
      ⟨(instructions instruction member).1 register isOperand, rfl⟩
  cases instruction with
  | compute operator target left right =>
      refine .lift (declared target ?_) (.lift (declared left ?_) (.lift (declared right ?_) ?_))
      · exact List.mem_cons_self
      · exact List.mem_cons_of_mem _ List.mem_cons_self
      · exact List.mem_cons_of_mem _ (List.mem_cons_of_mem _ List.mem_cons_self)
      · exact .pure _
  | branch target test left right =>
      refine .lift (declared left ?_) (.lift (declared right ?_) ?_)
      · exact List.mem_cons_self
      · exact List.mem_cons_of_mem _ List.mem_cons_self
      · exact .pure _
  | jump target => exact .pure _
  | invoke number args results =>
      exact invoke_succeeds founded lowerable reached expands member
  | leave =>
      obtain ⟨item, left⟩ : ∃ item, (activationOf site.function owner).leave = .ok item :=
        leave_total few registers.enough
      exact .lift left (.pure _)

theorem blocks_succeed {site : Site} (reached : program.Reaches site) {owner : C.Owner}
    (few : owner = .function → site.function.type.results.length ≤ 1)
    {expander : Expander} (expands : ExpandsAt program site expander) :
    Succeeds (Expected program)
      (blocks program expander (activationOf site.function owner)) := by
  refine .bind (.mapM ?_) fun lowered => .pure _
  rintro ⟨code, number⟩ isBlock
  have member : code ∈ site.body.blocks := List.fst_mem_of_mem_zipIdx isBlock
  refine .bind (.mapM fun instruction isInstruction => ?_) fun lowered => .pure _
  exact instruction_succeeds founded lowerable reached few expands
    (List.mem_flatten.mpr ⟨code, member, isInstruction⟩)

/-- Expansion succeeds at every site.  The induction is on the callees that may
still be expanded; one that is invoked is always among them. -/
theorem expand_succeeds {site : Site} (reached : program.Reaches site)
    {dormant : List CalleeNumber} (isDormant : program.DormantIn site.chain dormant)
    (names : List String) :
    ExpandsAt program site (expand program dormant names) := by
  intro number args results inner sources targets invoked found argCount resultCount
  obtain ⟨_, invocations⟩ := (lowerable.sites site reached).instructions _ invoked
  obtain ⟨callee, isCallee, _, _, mayInvoke⟩ := invocations number args results rfl
  rw [found] at isCallee
  cases isCallee
  have present : number < program.callees.length :=
    (List.getElem?_eq_some_iff.mp found).1
  have allowed : number ∈ dormant := (isDormant.2 number).mpr ⟨present, mayInvoke⟩
  have innerReached : program.Reaches ⟨number :: site.chain, inner⟩ := by
    obtain ⟨function, member, path⟩ := reached
    exact ⟨function, member, .tail path (.mk invoked found)⟩
  have fit := (lowerable.sites _ innerReached).registers
  have registersExist := founded.registersExist (List.mem_of_getElem? found) rfl
  have induction := expand_succeeds innerReached
    (isDormant.erase number) (names ++ [inner.name])
  rw [expand, dif_pos allowed]
  refine nextExpansion_succeeds.bind fun expansion => ?_
  obtain ⟨valid, registers, declared⟩ := (registersFit_iff founded.ordered registersExist
    (.expansion expansion)).mpr fit
  obtain ⟨inputs, inputsCopied⟩ : ∃ items, copiesIn (expansionOf inner expansion) sources =
      .ok items := by
    apply copiesIn_total
    rw [argCount]
    exact Nat.le_trans (Nat.le_add_right _ _) fit.enough
  obtain ⟨outputs, outputsCopied⟩ : ∃ items, copiesOut (expansionOf inner expansion) targets =
      .ok items := by
    apply copiesOut_total
    rw [resultCount]
    exact fit.enough
  have lowered : Succeeds (Expected program) (blocks program
      (expand program (dormant.erase number) (names ++ [inner.name]))
      (expansionOf inner expansion)) := by
    refine blocks_succeed founded lowerable innerReached ?_ induction
    intro isFunction
    cases isFunction
  refine .lift valid (.lift declared (.lift inputsCopied (lowered.bind fun code => ?_)))
  exact .lift outputsCopied (.pure _)
termination_by dormant.length
decreasing_by exact length_erase_lt allowed

theorem code_succeeds {function : BodiedFunction} (member : function ∈ program.compiled) :
    Succeeds (Expected program) (Lowering.code program (definitionOf function)) := by
  have reached : program.Reaches ⟨[], function⟩ := ⟨function, member, .refl⟩
  have few := lowerable.fewResults function member
  have expands := expand_succeeds founded lowerable reached Program.dormantIn_nil []
  have lowered : Succeeds (Expected program) (blocks program
      (expand program (List.range program.callees.length) []) (definitionOf function)) :=
    blocks_succeed founded lowerable reached (fun _ => few) expands
  refine lowered.bind fun code => ?_
  split
  · exact .pure _
  · obtain ⟨item, finished⟩ : ∃ item, (definitionOf function).finish = .ok item :=
      finish_total few (lowerable.sites _ reached).registers.enough
    exact .lift finished (.pure _)

theorem definition_total {function : BodiedFunction} (member : function ∈ program.compiled)
    {natives : List NativeFunction}
    (called : ∀ native ∈ natives, program.CallsNative native) :
    ∃ lowered used, Lowering.definition program function natives = .ok (lowered, used) ∧
      ∀ native ∈ used, program.CallsNative native := by
  have reached : program.Reaches ⟨[], function⟩ := ⟨function, member, .refl⟩
  have fit := (lowerable.sites _ reached).registers
  have registersExist :=
    founded.registersExist (Program.mem_compiled_iff.mp member) rfl
  obtain ⟨valid, registers, declared⟩ :=
    (registersFit_iff founded.ordered registersExist .function).mpr fit
  obtain ⟨code, usage, lowers, expected⟩ :=
    code_succeeds founded lowerable member ⟨natives, [], 0⟩ ⟨called, nofun⟩
  obtain ⟨head, headed⟩ := (founded.declareCompiled_iff member).mpr
    (lowerable.heads function member)
  obtain ⟨temporaries, stored⟩ : ∃ items,
      Lowering.temporaries program.types usage.results = .ok items := by
    apply Success.mapM_total
    rintro ⟨callee, type⟩ isResult
    obtain ⟨inside, spellable⟩ := expected.results _ isResult
    obtain ⟨declaration, isDeclared⟩ := founded.ordered.declare_total inside spellable
      (.name (C.Variable.result callee).text)
    exact ⟨_, Success.bind_iff.mpr ⟨declaration, isDeclared, rfl⟩⟩
  obtain ⟨inputs, copied⟩ : ∃ items, copiesIn (definitionOf function)
      ((program.definitionType function.type).params.map fun param => .param param.name) =
        .ok items := by
    apply copiesIn_total
    rw [List.length_map, (definitionType_names program function.type).2.1]
    exact Nat.le_trans (Nat.le_add_right _ _) fit.enough
  refine ⟨⟨head, registers ++ temporaries ++ inputs ++ code⟩, usage.natives, ?_,
    expected.natives⟩
  unfold Lowering.definition
  rw [if_neg (Nat.not_lt.mpr (lowerable.fewResults function member))]
  refine Success.bind_iff.mpr ⟨_, valid, ?_⟩
  refine Success.bind_iff.mpr ⟨_, lowers, ?_⟩
  refine Success.bind_iff.mpr ⟨_, headed, ?_⟩
  refine Success.bind_iff.mpr ⟨_, declared, ?_⟩
  refine Success.bind_iff.mpr ⟨_, stored, ?_⟩
  exact Success.bind_iff.mpr ⟨_, copied, rfl⟩

theorem definitions_total {functions : List BodiedFunction}
    (members : functions ⊆ program.compiled) {natives : List NativeFunction}
    (called : ∀ native ∈ natives, program.CallsNative native) :
    ∃ lowered used, Lowering.definitions program natives functions = .ok (lowered, used) ∧
      ∀ native ∈ used, program.CallsNative native := by
  induction functions generalizing natives with
  | nil => exact ⟨[], natives, rfl, called⟩
  | cons function functions induction =>
      obtain ⟨memberFirst, membersLater⟩ := List.cons_subset.mp members
      obtain ⟨first, used, firstSuccess, usedCalled⟩ :=
        definition_total founded lowerable memberFirst called
      obtain ⟨others, all, othersSuccess, allCalled⟩ := induction membersLater usedCalled
      refine ⟨first :: others, all, ?_, allCalled⟩
      exact Success.bind_iff.mpr ⟨_, firstSuccess,
        Success.bind_iff.mpr ⟨_, othersSuccess, rfl⟩⟩

end Lowerable

end Lowering

namespace Program

theorem Lowerable.source_total {program : Program} (lowerable : program.Lowerable)
    (founded : program.Founded) : ∃ source, program.source = .ok source := by
  have noneYet : ∀ native ∈ ([] : List NativeFunction), program.CallsNative native := nofun
  obtain ⟨definitions, natives, defined, called⟩ :=
    Lowering.definitions_total founded lowerable (List.Subset.refl program.compiled) noneYet
  obtain ⟨linked, declared⟩ : ∃ linked, natives.mapM (fun native =>
      program.types.declareFunction native.type (.name native.symbol)) = .ok linked :=
    Success.mapM_total fun native member =>
      lowerable.native_declared founded (called native member)
  exact ⟨_, Success.bind_iff.mpr ⟨_, defined, Success.bind_iff.mpr ⟨linked, declared, rfl⟩⟩⟩

/-- A source is generated exactly for the programs that can be lowered.  What
no compiled function leads to makes no difference. -/
theorem source_exists_iff (name : String) (pointerSize : PointerSize)
    (operations : List Operation) :
    let program := history name pointerSize operations
    ((∃ source, program.source = .ok source) ↔ program.Lowerable) ∧
    ∀ otherName otherSize otherOperations,
      let other := history otherName otherSize otherOperations
      program.Agrees other →
        ((∃ source, other.source = .ok source) ↔ ∃ source, program.source = .ok source) := by
  have accepts : ∀ name pointerSize operations,
      (∃ source, (history name pointerSize operations).source = .ok source) ↔
        (history name pointerSize operations).Lowerable := by
    intro name pointerSize operations
    have founded := history_founded name pointerSize operations
    constructor
    · rintro ⟨source, success⟩
      exact founded.lowerable_of_source success
    · intro lowerable
      exact lowerable.source_total founded
  refine ⟨accepts name pointerSize operations, ?_⟩
  intro otherName otherSize otherOperations other agree
  rw [accepts, accepts]
  exact ⟨agree.symm.lowerable, agree.lowerable⟩

/-- A native that is never called may have a type without a name in C. -/
example : (history "idle" .eight [.types (.intern ⟨0⟩),
    .callee (.native ⟨"probe", ⟨[⟨"x", 0⟩], []⟩, "probe"⟩)]).source = .ok ⟨[], []⟩ := by
  cbv

end Program

end CBackend
