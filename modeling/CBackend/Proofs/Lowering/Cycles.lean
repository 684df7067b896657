import Mathlib.Data.List.Chain
import CBackend.Proofs.Lowering.Nesting

/-!
# Inline functions that invoke themselves

Lowering reports endless expansion only for a cycle of invocations that a
compiled function leads into: the functions being expanded form a path from
it, and the one to be expanded again stands on that path.  Wherever such a
cycle can be reached, no source is generated.
-/

namespace CBackend

open Relation (TransGen)

namespace Program

/-- The names of inline functions on a path of invocations that begins in the
body of a compiled function and ends as soon as it comes back to itself. -/
def LeadsIntoCycle (program : Program) (chain : List String) : Prop :=
  ∃ root ∈ program.compiled, ∃ (entered : List BodiedFunction) (again : BodiedFunction),
    chain = (entered ++ [again]).map BodiedFunction.name ∧
    List.IsChain program.InvokesInline (root :: (entered ++ [again])) ∧
    (entered.map BodiedFunction.name).Nodup ∧ again ∈ entered

/-- Endless expansion is reported for a cycle only. -/
def Truthful (program : Program) : LoweringError → Prop
  | .endlessExpansion chain => program.LeadsIntoCycle chain
  | _ => True

/-- If a computation fails for endless expansion, then truthfully. -/
abbrev FailsTruthfully (program : Program) (result : Except LoweringError α) : Prop :=
  FailsOnly program.Truthful result

variable {program : Program}

theorem lift_truthful (query : Except StoreError α) :
    program.FailsTruthfully (liftM query : Except LoweringError α) := by
  cases query with
  | error cause => exact .error trivial
  | ok answer => exact .ok answer

/-- All types are as good as known: no query tells of expansions. -/
theorem truthful_permits (program : Program) :
    Lowering.Permits program.types (fun _ => True) program.Truthful where
  register _ _ := trivial
  arity _ _ _ := trivial
  limitation _ := trivial
  shapes _ _ := lift_truthful _
  arrays _ _ := lift_truthful _
  unnamed _ _ _ _ _ := trivial
  mentions _ _ _ _ _ _ _ := ⟨trivial, fun _ => trivial⟩

theorem declareFunction_truthful (type : FunctionType) (declared : C.Declarator) :
    program.FailsTruthfully (program.types.declareFunction type declared) :=
  program.truthful_permits.declareFunction_fails (fun _ _ => trivial) declared

end Program

namespace Lowering

variable {program : Program}

/-- A step of lowering that may fail for endless expansion only truthfully. -/
abbrev TruthfulStep (program : Program) (step : Lower α) : Prop :=
  Confined (fun _ => True) program.Truthful step

theorem link_truthful (native : NativeFunction) :
    TruthfulStep program (link program.types native) := by
  refine Confined.bind (fun _ _ => trivial) fun usage => ?_
  split
  · exact fun _ _ => trivial
  · refine (Confined.lift (Program.declareFunction_truthful _ _)).bind fun first => ?_
    refine (Confined.lift (Program.declareFunction_truthful _ _)).bind fun second => ?_
    split
    · exact .throw trivial
    · exact .pure _

theorem call_truthful (symbol name : String) (type : FunctionType)
    (args targets : List C.Variable) :
    TruthfulStep program (call symbol name type args targets) := by
  unfold call
  split
  · exact .pure _
  · exact Confined.bind (fun _ _ => trivial) fun _ => .pure _
  · exact .throw trivial

/-- Whatever inline functions a function invokes are expanded truthfully. -/
def TruthfulIn (program : Program) (function : BodiedFunction) (expander : Expander) : Prop :=
  ∀ number args results, Instruction.invoke number args results ∈ function.body.instructions →
    ∀ inner, program.callees[number]? = some (.inlined inner) →
      ∀ sources targets, TruthfulStep program (expander number inner sources targets)

section Code

variable {function : BodiedFunction} {expander : Expander}

theorem TruthfulIn.blocks (truthful : TruthfulIn program function expander) (owner : C.Owner) :
    TruthfulStep program (blocks program expander (activationOf function owner)) := by
  apply program.truthful_permits.blocks_confined
  intro block isBlock number args results invoked
  cases found : program.callees[number]? with
  | none =>
      unfold invoke
      rw [found]
      exact .throw trivial
  | some callee =>
      apply program.truthful_permits.invoke_confined found
      · intro native _
        exact link_truthful native
      · intro symbol args targets
        exact call_truthful symbol _ _ args targets
      · rintro inner rfl
        have isInstruction := List.mem_flatten.mpr ⟨block, isBlock, invoked⟩
        exact truthful number args results isInstruction inner found

theorem TruthfulIn.expansion (truthful : TruthfulIn program function expander)
    (args results : List C.Variable) :
    TruthfulStep program (expansion program expander function args results) := by
  apply program.truthful_permits.expansion_confined fun _ _ => trivial
  · exact fun _ _ => trivial
  · exact fun _ => truthful.blocks _

end Code

/-- The functions being expanded are a path from the compiled function, so one
that is expanded again closes a cycle. -/
theorem Active.expand_truthful (distinct : program.CalleesDistinct) {root : BodiedFunction}
    (member : root ∈ program.compiled) {stack : Stack} {dormant : List CalleeNumber}
    (active : Active program stack dormant) {number : CalleeNumber} {function : BodiedFunction}
    (found : program.callees[number]? = some (.inlined function))
    (path : List.IsChain program.InvokesInline (root :: (stack.functions ++ [function])))
    (args results : List C.Variable) :
    TruthfulStep program (expand program dormant stack.names number function args results) := by
  by_cases isDormant : number ∈ dormant
  · rw [expand_dormant isDormant, ← Stack.names_push stack number function]
    have pushed := active.push isDormant found
    have inside : TruthfulIn program function (expand program (dormant.erase number)
        (Stack.names (stack ++ [(number, function)]))) := by
      intro next nextArgs nextResults invoked inner innerFound
      apply pushed.expand_truthful distinct member innerFound
      rw [Stack.functions_push, List.append_assoc]
      exact List.isChain_cons_append_cons_cons.mpr
        ⟨path, ⟨next, nextArgs, nextResults, invoked, innerFound⟩, .singleton _⟩
    exact inside.expansion args results
  · rw [expand_again isDormant]
    have again : number ∈ stack.numbers := by
      by_contra fresh
      exact isDormant ((active.dormant_iff found).mpr fresh)
    refine .throw ⟨root, member, stack.functions, function, ?_, path,
      active.names_nodup distinct, active.mem_functions found again⟩
    rw [List.map_append]
    rfl
termination_by dormant.length
decreasing_by exact length_erase_lt ‹_ ∈ dormant›

theorem code_truthful (distinct : program.CalleesDistinct) {function : BodiedFunction}
    (member : function ∈ program.compiled) :
    TruthfulStep program (code program (definitionOf function)) := by
  have inside : TruthfulIn program function
      (expand program (List.range program.callees.length) []) := by
    intro number args results invoked inner found
    exact Active.nil.expand_truthful distinct member found
      (.cons_cons ⟨number, args, results, invoked, found⟩ (.singleton _))
  rw [code_eq_codeBy]
  exact program.truthful_permits.codeBy_confined (inside.blocks .function)

theorem definition_truthful (distinct : program.CalleesDistinct) {function : BodiedFunction}
    (member : function ∈ program.compiled) (natives : List NativeFunction) :
    program.FailsTruthfully (definition program function natives) :=
  program.truthful_permits.definition_fails (fun _ _ => trivial) (fun _ _ => trivial)
    (code_truthful distinct member) trivial fun _ _ _ _ => trivial

theorem definitions_truthful (distinct : program.CalleesDistinct)
    {functions : List BodiedFunction} (members : functions ⊆ program.compiled)
    (natives : List NativeFunction) :
    program.FailsTruthfully (definitions program natives functions) := by
  induction functions generalizing natives with
  | nil => exact .ok _
  | cons function later induction =>
      obtain ⟨first, others⟩ := List.cons_subset.mp members
      refine (definition_truthful distinct first natives).bind fun result _ => ?_
      exact (induction others _).bind fun _ _ => .ok _

end Lowering

namespace Program

variable {program : Program}

theorem source_truthful (distinct : program.CalleesDistinct) :
    program.FailsTruthfully program.source := by
  refine (Lowering.definitions_truthful distinct (List.Subset.refl _) []).bind fun _ _ => ?_
  refine FailsOnly.bind (FailsOnly.mapM fun native _ => ?_) fun _ _ => .ok _
  exact declareFunction_truthful _ _

/-- In a program that can be lowered no inline function that is reached leads
back to itself, since it is being expanded when its last invocation is
lowered. -/
theorem Lowerable.acyclic (lowerable : program.Lowerable) (distinct : program.CalleesDistinct)
    {root inner : BodiedFunction} (member : root ∈ program.compiled)
    (reached : TransGen program.InvokesInline root inner) :
    ¬ TransGen program.InvokesInline inner inner := by
  intro around
  obtain ⟨outer, toOuter, number, args, results, invoked, found⟩ := TransGen.tail'_iff.mp reached
  obtain ⟨back, toBack, other, otherArgs, otherResults, otherInvoked, otherFound⟩ :=
    TransGen.tail'_iff.mp around
  obtain ⟨more, entersOuter⟩ := enters_of_invokesInline toOuter []
  obtain ⟨inside, entersBack⟩ := enters_of_invokesInline toBack (number :: (more ++ []))
  have site : program.Reaches ⟨inside ++ number :: (more ++ []), back⟩ :=
    ⟨root, member, (entersOuter.tail (.mk invoked found)).trans entersBack⟩
  obtain ⟨callee, isCallee, _, _, mayInvoke⟩ :=
    ((lowerable.sites _ site).instructions _ otherInvoked).2 other otherArgs otherResults rfl
  obtain rfl : Callee.inlined inner = callee := Option.some.inj (otherFound.symm.trans isCallee)
  have sameNumber : other = number := distinct.number_unique otherFound found rfl
  apply mayInvoke
  rw [sameNumber]
  exact List.mem_append_right _ List.mem_cons_self

/-- However inline functions invoke one another, lowering ends: the code of
every compiled function comes about with at most as many expansions inside one
another as there are inline functions, whatever would happen beyond.  Endless
expansion is reported with a cycle that a compiled function leads into, and
where there is such a cycle no source is generated. -/
theorem inlining_ends (name : String) (pointerSize : PointerSize) (operations : List Operation) :
    let program := history name pointerSize operations
    (∀ function ∈ program.compiled, ∀ beyond : Lowering.Expander,
      Lowering.codeBy program
          (Lowering.expandWithin program beyond program.inlineFunctions.length [])
          (Lowering.definitionOf function) =
        Lowering.code program (Lowering.definitionOf function)) ∧
    (∀ chain, program.source = .error (.endlessExpansion chain) →
      program.LeadsIntoCycle chain) ∧
    ((∃ root ∈ program.compiled, ∃ inner, TransGen program.InvokesInline root inner ∧
        TransGen program.InvokesInline inner inner) →
      ∃ cause, program.source = .error cause) := by
  intro program
  have distinct : program.CalleesDistinct := history_calleesDistinct name pointerSize operations
  have founded : program.Founded := history_founded name pointerSize operations
  refine ⟨?_, ?_, ?_⟩
  · intro function _ beyond
    exact Lowering.codeBy_expandWithin distinct beyond _
  · intro chain failure
    exact source_truthful distinct _ failure
  · rintro ⟨root, member, inner, reached, around⟩
    cases generated : program.source with
    | error cause => exact ⟨cause, rfl⟩
    | ok source =>
        have lowerable := founded.lowerable_of_source generated
        exact absurd around (lowerable.acyclic distinct member reached)

/-- Two inline functions invoke each other; a compiled one begins with the
second. -/
def echoOperations : List Operation :=
  [.callee (.inlined ⟨"ping", ⟨[], []⟩, ⟨[], [[.invoke 1 [] []]]⟩⟩),
    .callee (.inlined ⟨"pong", ⟨[], []⟩, ⟨[], [[.invoke 0 [] []]]⟩⟩),
    .callee (.compiled ⟨"main", ⟨[], []⟩, ⟨[], [[.invoke 1 [] [], .leave]]⟩⟩)]

theorem echo_reported :
    (history "echo" .eight echoOperations).source =
      .error (.endlessExpansion ["pong", "ping", "pong"]) ∧
    (history "echo" .eight echoOperations).LeadsIntoCycle ["pong", "ping", "pong"] := by
  have failure : (history "echo" .eight echoOperations).source =
      .error (.endlessExpansion ["pong", "ping", "pong"]) := by with_unfolding_all rfl
  exact ⟨failure, (inlining_ends "echo" .eight echoOperations).2.1 _ failure⟩

end Program

end CBackend
