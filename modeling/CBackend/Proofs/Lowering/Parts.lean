import CBackend.Proofs.Failure
import CBackend.Proofs.Lowering.Emission
import CBackend.Proofs.Lowering.Spelling

/-!
# What the parts of lowering can fail with

Lowering consists of parts that look up types and registers, and only the
whole knows which of them are there.  So the causes of failure are confined
part by part: for all types that are known, if what a single query or a
single instruction can run into is allowed, then so is what declarations,
blocks, expansions and definitions can.
-/

namespace CBackend.Lowering

/-- An inline function in a block of its own, given how those that it invokes
are expanded. -/
def expansion (program : Program) (inner : Expander) (function : BodiedFunction)
    (args results : List C.Variable) : Lower (List C.Item) := do
  let number ← nextExpansion
  let activation := expansionOf function number
  activation.validate program.types
  let registers ← activation.declarations program.types
  let inputs ← copiesIn activation args
  let code ← blocks program inner activation
  let outputs ← copiesOut activation results
  return [.block (registers ++ inputs ++ code ++ [.emptyLabel (.finish number)] ++ outputs)]

/-- The code of a definition, given how inline functions are expanded. -/
def codeBy (program : Program) (expander : Expander) (activation : Activation) :
    Lower (List C.Item) := do
  let lowered ← blocks program expander activation
  if activation.body.blocks.getLast?.any Block.divertsControl then return lowered
  else return lowered ++ [← activation.finish]

theorem code_eq_codeBy (program : Program) (activation : Activation) :
    code program activation =
      codeBy program (expand program (List.range program.callees.length) []) activation := rfl

section Expand

variable {program : Program} {dormant : List CalleeNumber} {chain : List String}
  {number : CalleeNumber} {function : BodiedFunction}

theorem expand_dormant (isDormant : number ∈ dormant) :
    expand program dormant chain number function =
      expansion program (expand program (dormant.erase number) (chain ++ [function.name]))
        function := by
  funext args results
  rw [expand, dif_pos isDormant]
  rfl

theorem expand_again (again : number ∉ dormant) (args results : List C.Variable) :
    expand program dormant chain number function args results =
      throw (.endlessExpansion (chain ++ [function.name])) := by
  rw [expand, dif_neg again]

end Expand

/-- What can go wrong with an instruction or with a query about a known type
is allowed. -/
structure Permits (types : TypeStore) (known : TypeNumber → Prop)
    (allowed : LoweringError → Prop) : Prop where
  register : ∀ function number, allowed (.missingRegister function number)
  arity : ∀ callee expected given, allowed (.wrongArity callee expected given)
  limitation : ∀ limitation, allowed (.limitation limitation)
  shapes : ∀ number, known number →
    FailsOnly allowed (liftM (types.shapeAt number) : Except LoweringError Shape)
  arrays : ∀ number, known number →
    FailsOnly allowed (liftM (types.isArray number) : Except LoweringError Bool)
  unnamed : ∀ number code, known number → types.shapeAt number = .ok (.basic code) →
    code.cName? = none → allowed (.unnamed code)
  mentions : ∀ number shape, known number → types.shapeAt number = .ok shape →
    shape.isStruct = false → ∀ below ∈ shape.mentions,
      known below ∧ (number ≤ below → allowed (.store (.missing below)))

namespace Permits

variable {program : Program} {types : TypeStore} {known : TypeNumber → Prop}
  {allowed : LoweringError → Prop}

theorem declareFunctionBy_fails (permits : Permits types known allowed)
    {declare : TypeStore.Declarer} {type : FunctionType}
    (areKnown : ∀ mentioned ∈ type.mentions, known mentioned)
    (each : ∀ mentioned ∈ type.mentions, ∀ declared,
      FailsOnly allowed (declare mentioned declared))
    (declared : C.Declarator) :
    FailsOnly allowed (types.declareFunctionBy declare type declared) := by
  have fields : ∀ fields : List Field, (∀ field ∈ fields, field.type ∈ type.mentions) →
      FailsOnly allowed (TypeStore.declareFieldsBy declare fields) := by
    intro fields mentioned
    exact .mapM fun field member => each field.type (mentioned field member) _
  have isParam : ∀ param ∈ type.params, param.type ∈ type.mentions := fun param member =>
    List.mem_map_of_mem (List.mem_append_left _ member)
  have isResult : ∀ result ∈ type.results, result.type ∈ type.mentions := fun result member =>
    List.mem_map_of_mem (List.mem_append_right _ member)
  refine (fields type.params isParam).bind fun params _ => ?_
  rcases results : type.results with _ | ⟨single, _ | ⟨second, others⟩⟩
  · exact .ok _
  · have member : single.type ∈ type.mentions :=
      isResult single (by rw [results]; exact List.mem_cons_self)
    refine (permits.arrays single.type (areKnown _ member)).bind fun array _ => ?_
    cases array with
    | true => exact .error (permits.limitation _)
    | false => exact each single.type member _
  · rw [results] at isResult
    exact (fields _ isResult).bind fun _ _ => .ok _

/-- Declarations go down from type to type and meet known ones only. -/
theorem declare_fails (permits : Permits types known allowed) {number : TypeNumber}
    (isKnown : known number) (declared : C.Declarator) :
    FailsOnly allowed (types.declare number declared) := by
  induction number using Nat.strongRecOn generalizing declared with
  | ind number induction =>
      rw [TypeStore.declare]
      refine (permits.shapes number isKnown).bind fun shape success => ?_
      have isShape := TypeStore.lift_ok_iff.mp success
      have mentions := permits.mentions number shape isKnown isShape
      have wraps : shape.isStruct = false → ∀ below ∈ shape.mentions, ∀ declared,
          FailsOnly allowed (if _ : below < number then types.declare below declared
            else .error (.store (.missing below))) := by
        intro noStruct below member declared
        obtain ⟨belowKnown, missing⟩ := mentions noStruct below member
        split
        · exact induction below ‹_› belowKnown declared
        · exact .error (missing (Nat.le_of_not_lt ‹_›))
      cases shape with
      | basic code =>
          cases named : code.cName? with
          | some name =>
              dsimp only
              rw [named]
              exact .ok _
          | none =>
              dsimp only
              rw [named]
              exact .error (permits.unnamed number code isKnown isShape named)
      | struct name fields signature => exact .ok _
      | trait name prototypes => exact .ok _
      | function type =>
          exact permits.declareFunctionBy_fails (fun _ member => (mentions rfl _ member).1)
            (wraps rfl) _
      | array element capacity => exact wraps rfl element List.mem_cons_self _
      | pointer mode pointee =>
          have pointeeKnown := (mentions rfl pointee List.mem_cons_self).1
          refine (permits.arrays pointee pointeeKnown).bind fun array _ => ?_
          cases array with
          | true => exact wraps rfl pointee List.mem_cons_self _
          | false => exact wraps rfl pointee List.mem_cons_self _
      | aliasOf name target => exact wraps rfl target List.mem_cons_self _

theorem declareFunction_fails (permits : Permits types known allowed) {type : FunctionType}
    (areKnown : ∀ mentioned ∈ type.mentions, known mentioned) (declared : C.Declarator) :
    FailsOnly allowed (types.declareFunction type declared) :=
  permits.declareFunctionBy_fails areKnown
    (fun mentioned member => permits.declare_fails (areKnown mentioned member)) declared

section Registers

variable {activation : Activation}

theorem register_fails (permits : Permits types known allowed) (number : RegisterNumber) :
    FailsOnly allowed (activation.register number) := by
  unfold Activation.register
  split
  · exact .ok _
  · exact .error (permits.register _ _)

theorem registers_fail (permits : Permits types known allowed) (numbers : List RegisterNumber) :
    FailsOnly allowed (activation.registers numbers) :=
  .mapM fun number _ => permits.register_fails number

theorem copiesIn_fails (permits : Permits types known allowed) (sources : List C.Variable) :
    FailsOnly allowed (copiesIn activation sources) :=
  .mapM fun _ _ => (permits.register_fails _).bind fun _ _ => .ok _

theorem copiesOut_fails (permits : Permits types known allowed) (targets : List C.Variable) :
    FailsOnly allowed (copiesOut activation targets) :=
  .mapM fun _ _ => (permits.register_fails _).bind fun _ _ => .ok _

theorem finish_fails (permits : Permits types known allowed) :
    FailsOnly allowed activation.finish := by
  unfold Activation.finish
  split
  · exact .ok _
  · exact (permits.register_fails _).bind fun _ _ => .ok _
  · exact .error (permits.limitation _)

theorem leave_fails (permits : Permits types known allowed) :
    FailsOnly allowed activation.leave := by
  unfold Activation.leave
  split
  · exact permits.finish_fails
  · exact .ok _

theorem validate_fails (permits : Permits types known allowed)
    (areKnown : ∀ type ∈ activation.body.registers, known type) :
    FailsOnly allowed (activation.validate types) := by
  unfold Activation.validate
  dsimp only
  split
  · exact .error (permits.register _ _)
  · refine FailsOnly.forM fun entry member => ?_
    obtain ⟨type, number⟩ := entry
    have isKnown := areKnown type (List.fst_mem_of_mem_zipIdx member)
    refine (permits.arrays type isKnown).bind fun array _ => ?_
    cases array with
    | true => exact .error (permits.limitation _)
    | false => exact .ok _

theorem declarations_fail (permits : Permits types known allowed)
    (areKnown : ∀ type ∈ activation.body.registers, known type) :
    FailsOnly allowed (activation.declarations types) := by
  refine FailsOnly.mapM fun entry member => ?_
  obtain ⟨type, number⟩ := entry
  have isKnown := areKnown type (List.fst_mem_of_mem_zipIdx member)
  exact (permits.declare_fails isKnown _).bind fun _ _ => .ok _

end Registers

section Code

variable {good : Usage → Prop} {activation : Activation} {expander : Expander}

/-- The invocation of a callee that exists fails as its call or its expansion
does. -/
theorem invoke_confined (permits : Permits program.types known allowed)
    {number : CalleeNumber} {callee : Callee}
    (found : program.callees[number]? = some callee)
    (links : ∀ native, callee = .native native → Confined good allowed (link program.types native))
    (calls : ∀ symbol args targets,
      Confined good allowed (call symbol callee.name callee.type args targets))
    (expands : ∀ function, callee = .inlined function → ∀ args results,
      Confined good allowed (expander number function args results))
    (args results : List RegisterNumber) :
    Confined good allowed (invoke program expander activation number args results) := by
  unfold invoke
  rw [found]
  dsimp only
  split
  · exact .throw (permits.arity _ _ _)
  · refine (Confined.lift (permits.registers_fail args)).bind fun sources => ?_
    refine (Confined.lift (permits.registers_fail results)).bind fun targets => ?_
    cases callee with
    | native native => exact (links native rfl).bind fun _ => calls _ _ _
    | compiled function => exact calls _ _ _
    | inlined function => exact expands function rfl sources targets

theorem instruction_confined (permits : Permits program.types known allowed)
    (instruction : Instruction)
    (invokes : ∀ callee args results, instruction = .invoke callee args results →
      Confined good allowed (invoke program expander activation callee args results)) :
    Confined good allowed (Lowering.instruction program expander activation instruction) := by
  cases instruction with
  | compute operator target left right =>
      refine (Confined.lift (permits.register_fails target)).bind fun _ => ?_
      refine (Confined.lift (permits.register_fails left)).bind fun _ => ?_
      exact (Confined.lift (permits.register_fails right)).bind fun _ => .pure _
  | branch target test left right =>
      refine (Confined.lift (permits.register_fails left)).bind fun _ => ?_
      exact (Confined.lift (permits.register_fails right)).bind fun _ => .pure _
  | jump target => exact .pure _
  | invoke callee args results => exact invokes callee args results rfl
  | leave => exact (Confined.lift permits.leave_fails).bind fun _ => .pure _

theorem blocks_confined (permits : Permits program.types known allowed)
    (invokes : ∀ block ∈ activation.body.blocks, ∀ callee args results,
      .invoke callee args results ∈ block →
        Confined good allowed (invoke program expander activation callee args results)) :
    Confined good allowed (blocks program expander activation) := by
  refine Confined.bind (Confined.mapM fun entry member => ?_) fun _ => .pure _
  obtain ⟨block, number⟩ := entry
  have isBlock := List.fst_mem_of_mem_zipIdx member
  refine Confined.bind (Confined.mapM fun instruction isInstruction => ?_) fun _ => .pure _
  apply permits.instruction_confined
  intro callee args results same
  exact invokes block isBlock callee args results (same ▸ isInstruction)

theorem codeBy_confined (permits : Permits program.types known allowed)
    (lowers : Confined good allowed (blocks program expander activation)) :
    Confined good allowed (codeBy program expander activation) := by
  refine lowers.bind fun _ => ?_
  split
  · exact .pure _
  · exact (Confined.lift permits.finish_fails).bind fun _ => .pure _

end Code

section Definitions

variable {good : Usage → Prop} {function : BodiedFunction}

theorem expansion_confined (permits : Permits program.types known allowed)
    (areKnown : ∀ type ∈ function.body.registers, known type) {inner : Expander}
    (numbers : Confined good allowed nextExpansion)
    (lowers : ∀ number, Confined good allowed (blocks program inner (expansionOf function number)))
    (args results : List C.Variable) :
    Confined good allowed (expansion program inner function args results) := by
  refine numbers.bind fun number => ?_
  refine (Confined.lift (permits.validate_fails areKnown)).bind fun _ => ?_
  refine (Confined.lift (permits.declarations_fail areKnown)).bind fun _ => ?_
  refine (Confined.lift (permits.copiesIn_fails args)).bind fun _ => ?_
  refine (lowers number).bind fun _ => ?_
  exact (Confined.lift (permits.copiesOut_fails results)).bind fun _ => .pure _

theorem definition_fails (permits : Permits program.types known allowed)
    (typesKnown : ∀ mentioned ∈ function.type.mentions, known mentioned)
    (registersKnown : ∀ type ∈ function.body.registers, known type)
    (lowers : Confined good allowed (code program (definitionOf function)))
    {natives : List NativeFunction} (start : good ⟨natives, [], 0⟩)
    (resultsKnown : ∀ usage, good usage → ∀ entry ∈ usage.results, known entry.2) :
    FailsOnly allowed (definition program function natives) := by
  unfold definition
  split
  · exact .error (permits.limitation _)
  · refine (permits.validate_fails registersKnown).bind fun _ _ => ?_
    refine (lowers.fails start).bind fun result success => ?_
    have ends := lowers.keeps start success
    refine FailsOnly.bind ?_ fun _ _ => ?_
    · apply permits.declareFunction_fails
      rw [Program.definitionType_mentions]
      exact typesKnown
    refine (permits.declarations_fail registersKnown).bind fun _ _ => ?_
    refine FailsOnly.bind (FailsOnly.mapM fun entry member => ?_) fun _ _ => ?_
    · exact (permits.declare_fails (resultsKnown _ ends entry member) _).bind fun _ _ => .ok _
    · exact (permits.copiesIn_fails _).bind fun _ _ => .ok _

end Definitions

end Permits

end CBackend.Lowering
