import CBackend.Proofs.Lowering.Regions
import CBackend.Proofs.Lowering.Spelling

/-!
# Programs that can be lowered

What lowering asks of a program, stated without it.  Only compiled functions
and what they lead to are looked at: a site is a body that gets lowered
together with the inline functions that are being expanded around it.
-/

namespace CBackend

open Relation (ReflTransGen)

/-- The registers that an instruction names. -/
def Instruction.registers : Instruction → List RegisterNumber
  | .compute _ target left right => [target, left, right]
  | .branch _ _ left right => [left, right]
  | .invoke _ args results => args ++ results
  | .jump _ | .leave => []

/-- A function whose body is lowered, and the inline functions in whose
expansion it stands, the innermost first. -/
structure Site where
  chain : List CalleeNumber
  function : BodiedFunction

namespace Site

def body (site : Site) : Body := site.function.body

end Site

namespace Program

/-- The invocation of an inline function leads into its body. -/
inductive Enters (program : Program) : Site → Site → Prop where
  | mk {chain : List CalleeNumber} {function inner : BodiedFunction}
      {number : CalleeNumber} {args results : List RegisterNumber}
      (invoked : Instruction.invoke number args results ∈ function.body.instructions)
      (found : program.callees[number]? = some (.inlined inner)) :
      Enters program ⟨chain, function⟩ ⟨number :: chain, inner⟩

/-- The sites that the compiled functions lead to. -/
def Reaches (program : Program) (site : Site) : Prop :=
  ∃ function ∈ program.compiled, ReflTransGen program.Enters ⟨[], function⟩ site

/-- A native that is called from somewhere. -/
def CallsNative (program : Program) (native : NativeFunction) : Prop :=
  ∃ site number args results, program.Reaches site ∧
    Instruction.invoke number args results ∈ site.body.instructions ∧
    program.callees[number]? = some (.native native)

/-- An inline function is invoked in the body of a function. -/
def InvokesInline (program : Program) (outer inner : BodiedFunction) : Prop :=
  ∃ number args results, Instruction.invoke number args results ∈ outer.body.instructions ∧
    program.callees[number]? = some (.inlined inner)

/-- A native is invoked in the body of a function. -/
def InvokesNative (program : Program) (function : BodiedFunction) (native : NativeFunction) :
    Prop :=
  ∃ number args results, Instruction.invoke number args results ∈ function.body.instructions ∧
    program.callees[number]? = some (.native native)

section Invocations

variable {program : Program}

theorem Enters.invokesInline {outer inner : Site} (step : program.Enters outer inner) :
    program.InvokesInline outer.function inner.function := by
  cases step with
  | mk invoked found => exact ⟨_, _, _, invoked, found⟩

/-- Whatever is being expanded around a function, invocations lead into the
same functions, and what is being expanded stays so. -/
theorem enters_of_invokesInline {outer inner : BodiedFunction}
    (path : ReflTransGen program.InvokesInline outer inner) (chain : List CalleeNumber) :
    ∃ more, ReflTransGen program.Enters ⟨chain, outer⟩ ⟨more ++ chain, inner⟩ := by
  induction path with
  | refl => exact ⟨[], .refl⟩
  | tail _ step induction =>
      obtain ⟨more, path⟩ := induction
      obtain ⟨number, args, results, invoked, found⟩ := step
      exact ⟨number :: more, .tail path (.mk invoked found)⟩

/-- A native is called exactly if compiled functions lead to a function that
invokes it. -/
theorem callsNative_iff {native : NativeFunction} :
    program.CallsNative native ↔ ∃ root ∈ program.compiled, ∃ inner,
      ReflTransGen program.InvokesInline root inner ∧ program.InvokesNative inner native := by
  constructor
  · rintro ⟨site, number, args, results, ⟨root, member, path⟩, invoked, found⟩
    refine ⟨root, member, site.function, ?_, number, args, results, invoked, found⟩
    exact path.lift Site.function fun _ _ => Enters.invokesInline
  · rintro ⟨root, member, inner, path, number, args, results, invoked, found⟩
    obtain ⟨more, entered⟩ := enters_of_invokesInline path []
    exact ⟨_, number, args, results, ⟨root, member, entered⟩, invoked, found⟩

end Invocations

/-- What is called has at most one result, and what is expanded is not being
expanded already. -/
def MayInvoke (chain : List CalleeNumber) (number : CalleeNumber) : Callee → Prop
  | .native function => function.type.results.length ≤ 1
  | .compiled function => function.type.results.length ≤ 1
  | .inlined _ => number ∉ chain

/-- The callee exists and is given as many arguments and results as it has. -/
def InvocationFits (program : Program) (chain : List CalleeNumber) (number : CalleeNumber)
    (args results : List RegisterNumber) : Prop :=
  ∃ callee, program.callees[number]? = some callee ∧
    args.length = callee.type.params.length ∧
    results.length = callee.type.results.length ∧ MayInvoke chain number callee

/-- An instruction names declared registers, and invokes what may be invoked. -/
def InstructionFits (program : Program) (site : Site) (instruction : Instruction) : Prop :=
  (∀ register ∈ instruction.registers, register < site.body.registers.length) ∧
    ∀ number args results, instruction = .invoke number args results →
      program.InvocationFits site.chain number args results

structure RegistersFit (types : TypeStore) (function : BodiedFunction) : Prop where
  enough : function.type.params.length + function.type.results.length ≤
    function.body.registers.length
  noArrays : ∀ type ∈ function.body.registers, ¬ types.ResolvesToArray type
  spellable : ∀ type ∈ function.body.registers, types.Spellable type

structure SiteFits (program : Program) (site : Site) : Prop where
  registers : RegistersFit program.types site.function
  instructions : ∀ instruction ∈ site.body.instructions, program.InstructionFits site instruction

/-- The prototype of a native, as text. -/
def prototypeText (types : TypeStore) (native : NativeFunction) :
    Except LoweringError String :=
  (types.declareFunction native.type (.name native.symbol)).map C.Declaration.text

structure Lowerable (program : Program) : Prop where
  fewResults : ∀ function ∈ program.compiled, function.type.results.length ≤ 1
  heads : ∀ function ∈ program.compiled, program.types.SpellableFunction function.type
  sites : ∀ site, program.Reaches site → program.SiteFits site
  natives : ∀ native, program.CallsNative native →
    program.types.SpellableFunction native.type
  symbols : ∀ first second, program.CallsNative first → program.CallsNative second →
    first.symbol = second.symbol →
      prototypeText program.types first = prototypeText program.types second

/-- Another program has the same types and compiled functions, and the same
callees wherever one is invoked. -/
structure Agrees (program other : Program) : Prop where
  types : other.types = program.types
  compiled : other.compiled = program.compiled
  callees : ∀ site number args results, program.Reaches site →
    Instruction.invoke number args results ∈ site.body.instructions →
      other.callees[number]? = program.callees[number]?

section Agrees

variable {program other : Program}

theorem Agrees.reached (agree : program.Agrees other) {site : Site}
    (reached : other.Reaches site) : program.Reaches site := by
  obtain ⟨function, member, path⟩ := reached
  have compiled : function ∈ program.compiled := agree.compiled ▸ member
  refine ⟨function, compiled, ?_⟩
  induction path with
  | refl => exact .refl
  | tail _ step induction =>
      cases step with
      | mk invoked found =>
          refine .tail induction (.mk invoked ?_)
          rw [← agree.callees _ _ _ _ ⟨function, compiled, induction⟩ invoked]
          exact found

theorem Agrees.symm (agree : program.Agrees other) : other.Agrees program :=
  ⟨agree.types.symm, agree.compiled.symm, fun site number args results reached invoked =>
    (agree.callees site number args results (agree.reached reached) invoked).symm⟩

theorem Agrees.callsNative (agree : program.Agrees other) {native : NativeFunction}
    (calls : other.CallsNative native) : program.CallsNative native := by
  obtain ⟨site, number, args, results, reached, invoked, found⟩ := calls
  have reachedHere := agree.reached reached
  refine ⟨site, number, args, results, reachedHere, invoked, ?_⟩
  rw [← agree.callees site number args results reachedHere invoked]
  exact found

theorem Agrees.lowerable (agree : program.Agrees other) (lowerable : program.Lowerable) :
    other.Lowerable := by
  have sites : ∀ site, other.Reaches site → other.SiteFits site := by
    intro site reached
    have reachedHere := agree.reached reached
    obtain ⟨registers, instructions⟩ := lowerable.sites site reachedHere
    refine ⟨agree.types ▸ registers, ?_⟩
    intro instruction member
    obtain ⟨declared, invocations⟩ := instructions instruction member
    refine ⟨declared, ?_⟩
    rintro number args results rfl
    rw [InvocationFits, agree.callees site number args results reachedHere member]
    exact invocations number args results rfl
  refine ⟨?_, ?_, sites, ?_, ?_⟩
  · rw [agree.compiled]
    exact lowerable.fewResults
  · rw [agree.compiled, agree.types]
    exact lowerable.heads
  · intro native calls
    rw [agree.types]
    exact lowerable.natives native (agree.callsNative calls)
  · intro first second firstCalled secondCalled
    rw [agree.types]
    exact lowerable.symbols first second (agree.callsNative firstCalled)
      (agree.callsNative secondCalled)

end Agrees

end Program

namespace Lowering

theorem prototypeText_ok_iff {types : TypeStore} {native : NativeFunction} {text : String} :
    Program.prototypeText types native = .ok text ↔
      ∃ prototype, types.declareFunction native.type (.name native.symbol) = .ok prototype ∧
        prototype.text = text := by
  rw [Program.prototypeText]
  cases types.declareFunction native.type (.name native.symbol) with
  | error cause => simp [Except.map]
  | ok prototype => simp [Except.map]

/-- A native is linked if its symbol is new or was linked with the same
prototype. -/
theorem link_iff {types : TypeStore} {native : NativeFunction} {before after : Usage} :
    link types native before = .ok ((), after) ↔
      (before.natives.find? (·.symbol == native.symbol) = none ∧
        after = { before with natives := before.natives ++ [native] }) ∨
      ∃ kept text, before.natives.find? (·.symbol == native.symbol) = some kept ∧
        Program.prototypeText types kept = .ok text ∧
        Program.prototypeText types native = .ok text ∧ after = before := by
  constructor
  · intro success
    obtain ⟨_, _, got, success⟩ := bind_success_iff.mp success
    cases got
    cases found : before.natives.find? (·.symbol == native.symbol) with
    | none =>
        simp only [found] at success
        cases success
        exact .inl ⟨rfl, rfl⟩
    | some kept =>
        simp only [found] at success
        obtain ⟨first, firstDeclared, success⟩ := lift_success_iff.mp success
        obtain ⟨second, secondDeclared, success⟩ := lift_success_iff.mp success
        split at success
        · exact (throw_not_success success).elim
        · rename_i same
          obtain ⟨_, rfl⟩ := pure_success_iff.mp success
          exact .inr ⟨kept, second.text, rfl,
            prototypeText_ok_iff.mpr ⟨first, firstDeclared, not_not.mp same⟩,
            prototypeText_ok_iff.mpr ⟨second, secondDeclared, rfl⟩, rfl⟩
  · rintro (⟨found, rfl⟩ | ⟨kept, text, found, keptText, nativeText, rfl⟩)
    · refine bind_success_iff.mpr ⟨before, before, rfl, ?_⟩
      simp only [found]
      rfl
    · obtain ⟨first, firstDeclared, rfl⟩ := prototypeText_ok_iff.mp keptText
      obtain ⟨second, secondDeclared, same⟩ := prototypeText_ok_iff.mp nativeText
      refine bind_success_iff.mpr ⟨after, after, rfl, ?_⟩
      simp only [found]
      refine lift_success_iff.mpr ⟨first, firstDeclared, ?_⟩
      refine lift_success_iff.mpr ⟨second, secondDeclared, ?_⟩
      rw [if_neg (not_not.mpr same.symm)]
      rfl

variable {types : TypeStore} {activation : Activation}

theorem forall_mem_zipIdx {property : TypeNumber → Prop} {numbers : List TypeNumber} :
    (∀ entry ∈ numbers.zipIdx, property entry.1) ↔ ∀ number ∈ numbers, property number := by
  rw [← List.forall_mem_map, List.zipIdx_map_fst]

theorem validate_iff (ordered : types.Ordered)
    (inside : ∀ type ∈ activation.body.registers, type < types.size) :
    activation.validate types = .ok () ↔
      activation.type.params.length + activation.type.results.length ≤
          activation.body.registers.length ∧
        ∀ type ∈ activation.body.registers, ¬ types.ResolvesToArray type := by
  have each : ∀ entry ∈ activation.body.registers.zipIdx,
      (do if ← types.isArray entry.1 then
            throw (.limitation (.arrayRegister entry.2 activation.function)) :
          Except LoweringError PUnit) = .ok ⟨⟩ ↔ ¬ types.ResolvesToArray entry.1 := by
    intro entry member
    have present : entry.1 ∈ activation.body.registers :=
      List.fst_mem_of_mem_zipIdx member
    rw [← ordered.not_isArray_iff (inside entry.1 present), Success.bind_iff]
    constructor
    · rintro ⟨array, found, success⟩
      cases array with
      | true => cases success
      | false => exact TypeStore.lift_ok_iff.mp found
    · intro found
      exact ⟨false, TypeStore.lift_ok_iff.mpr found, rfl⟩
  unfold Activation.validate
  by_cases few : activation.body.registers.length <
      activation.type.params.length + activation.type.results.length
  · rw [if_pos few]
    exact iff_of_false nofun fun fits => Nat.not_lt.mpr fits.1 few
  · rw [if_neg few, and_iff_right (Nat.le_of_not_lt few), ← forall_mem_zipIdx]
    exact Success.forM_iff.trans (forall₂_congr each)

theorem declarations_iff (ordered : types.Ordered)
    (inside : ∀ type ∈ activation.body.registers, type < types.size) :
    (∃ items, activation.declarations types = .ok items) ↔
      ∀ type ∈ activation.body.registers, types.Spellable type := by
  rw [← forall_mem_zipIdx]
  refine Success.mapM_succeeds_iff.trans (forall₂_congr fun entry member => ?_)
  have present := inside entry.1 (List.fst_mem_of_mem_zipIdx member)
  rw [← ordered.declares_iff present
    (.name (C.Variable.register activation.owner entry.2).text)]
  constructor
  · rintro ⟨item, success⟩
    obtain ⟨declaration, declared, _⟩ := Success.bind_iff.mp success
    exact ⟨declaration, declared⟩
  · rintro ⟨declaration, declared⟩
    exact ⟨_, Success.bind_iff.mpr ⟨declaration, declared, rfl⟩⟩

/-- A register file is accepted exactly if it fits. -/
theorem registersFit_iff (ordered : types.Ordered) {function : BodiedFunction}
    (inside : ∀ type ∈ function.body.registers, type < types.size) (owner : C.Owner) :
    ((activationOf function owner).validate types = .ok () ∧
      ∃ items, (activationOf function owner).declarations types = .ok items) ↔
      Program.RegistersFit types function := by
  refine (and_congr (validate_iff ordered inside) (declarations_iff ordered inside)).trans ?_
  constructor
  · rintro ⟨⟨enough, noArrays⟩, spellable⟩
    exact ⟨enough, noArrays, spellable⟩
  · rintro ⟨enough, noArrays, spellable⟩
    exact ⟨⟨enough, noArrays⟩, spellable⟩

end Lowering

end CBackend
