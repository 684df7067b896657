import CBackend.Output.Basic
import CBackend.Proofs.Lowering.HeaderOrder
import CBackend.Proofs.Lowering.Parts
import CBackend.Proofs.Lowering.Usage

/-!
# Why lowering fails

When everything is there that a program refers to, lowering fails only for
what the program says: registers that are not declared, wrong numbers of
arguments, structs out of order, clashing prototypes, endless expansion and
what C has no form for.  No look-up of a type, of a callee or of the name of a
basic type fails.
-/

namespace CBackend

/-- Failures that tell what is wrong with a program. -/
def LoweringError.InProgram : LoweringError → Prop
  | .missingRegister .. | .wrongArity .. | .incomplete .. | .symbolClash .. | .endlessExpansion _
  | .limitation _ => True
  | .unnamed _ | .store _ | .missingCallee _ => False

/-- All callees that a body invokes are among the first `count`. -/
def Body.InvokesBelow (body : Body) (count : Nat) : Prop :=
  ∀ block ∈ body.blocks, ∀ callee args results, .invoke callee args results ∈ block → callee < count

/-- Everything that a program refers to is there: types, names of basic types
in C, and callees. -/
structure Program.SelfContained (program : Program) : Prop where
  founded : program.Founded
  spelled : ∀ number code, program.types.shapeAt number = .ok (.basic code) → code.cName?.isSome
  invokable : ∀ callee ∈ program.callees, ∀ body ∈ callee.body?,
    body.InvokesBelow program.callees.length

/-- Lowering fails, if at all, for what the program says. -/
abbrev FailsInProgram (result : Except LoweringError α) : Prop :=
  FailsOnly LoweringError.InProgram result

namespace TypeStore

variable {store : TypeStore}

theorem Ordered.isArray_total (ordered : store.Ordered) {number : TypeNumber}
    (inside : number < store.size) :
    ∃ array, store.isArray number = .ok array := by
  classical
  exact ⟨decide (store.ResolvesToArray number),
    (ordered.isArray_ok_iff inside).mpr decide_eq_true_iff⟩

end TypeStore

namespace Program.SelfContained

variable {program : Program}

/-- Nothing is missing, so no query fails. -/
theorem permits (contained : program.SelfContained) :
    Lowering.Permits program.types (· < program.types.size) LoweringError.InProgram where
  register _ _ := trivial
  arity _ _ _ := trivial
  limitation _ := trivial
  shapes number inside := by
    obtain ⟨shape, isShape⟩ := TypeStore.shapeAt_of_lt inside
    rw [isShape]
    exact .ok shape
  arrays number inside := by
    obtain ⟨array, found⟩ := contained.founded.ordered.isArray_total inside
    rw [found]
    exact .ok array
  unnamed number code _ isShape none := by
    have named := contained.spelled number code isShape
    rw [none] at named
    cases named
  mentions number shape _ isShape noStruct below member := by
    have isBelow := contained.founded.ordered.downward number shape isShape noStruct below member
    exact ⟨contained.founded.ordered.existing number shape isShape below member,
      fun above => absurd isBelow (Nat.not_lt.mpr above)⟩

theorem requireComplete_fails (contained : program.SelfContained) (complete : List TypeNumber)
    (name : String) {field : Field} (inside : field.type < program.types.size) :
    FailsInProgram (program.types.requireComplete complete name field) := by
  obtain ⟨content, found, contentInside, _⟩ := contained.founded.ordered.content_holds inside
  obtain ⟨shape, isShape⟩ := TypeStore.shapeAt_of_lt contentInside
  refine FailsOnly.query found ?_
  refine FailsOnly.query isShape ?_
  cases shape.tag? with
  | none => exact .ok _
  | some tag =>
      dsimp only
      split
      · exact .error trivial
      · exact .ok _

theorem declareFields_fails (contained : program.SelfContained) {fields : List Field}
    (inside : ∀ field ∈ fields, field.type < program.types.size) :
    FailsInProgram (program.types.declareFields fields) :=
  .mapM fun field member => contained.permits.declare_fails (inside field member) _

theorem defineAll_fails (contained : program.SelfContained) {shapes : List Shape}
    (inside : ∀ shape ∈ shapes, ∀ mentioned ∈ shape.mentions, mentioned < program.types.size)
    (next : TypeNumber) (complete : List TypeNumber) :
    FailsInProgram (program.types.defineAll next complete shapes) := by
  induction shapes generalizing next complete with
  | nil => exact .ok _
  | cons shape later induction =>
      obtain ⟨first, others⟩ := List.forall_mem_cons.mp inside
      cases shape with
      | struct name fields signature =>
          have fieldsInside : ∀ field ∈ fields, field.type < program.types.size := by
            intro field member
            exact first field.type (List.mem_map_of_mem member)
          refine (FailsOnly.forM fun field member =>
            contained.requireComplete_fails complete name (fieldsInside field member)).bind
              fun _ _ => ?_
          refine ((contained.declareFields_fails fieldsInside).bind fun _ _ => .ok _).bind
            fun _ _ => ?_
          exact (induction others _ _).bind fun _ _ => .ok _
      | trait name prototypes =>
          have each : ∀ prototype ∈ prototypes,
              FailsInProgram
                (program.types.declareFunctionPointer prototype.type prototype.name) := by
            intro prototype member
            apply contained.permits.declareFunction_fails
            intro mentioned isMentioned
            exact first mentioned (List.mem_flatMap.mpr ⟨prototype, member, isMentioned⟩)
          refine ((FailsOnly.mapM each).bind fun _ _ => .ok _).bind fun _ _ => ?_
          exact (induction others _ _).bind fun _ _ => .ok _
      | _ => exact induction others _ _

theorem header_fails (contained : program.SelfContained) : FailsInProgram program.header := by
  have existing : ∀ shape ∈ program.types.shapes, ∀ mentioned ∈ shape.mentions,
      mentioned < program.types.size := by
    intro shape member
    obtain ⟨number, isShape⟩ := List.getElem?_of_mem member
    exact contained.founded.ordered.existing number shape (TypeStore.shapeAt_ok_iff.mpr isShape)
  refine (contained.defineAll_fails existing 0 []).bind fun _ _ => ?_
  refine FailsOnly.bind ?_ fun _ _ => .ok _
  apply FailsOnly.mapM
  intro function member
  apply contained.permits.declareFunction_fails
  rw [definitionType_mentions]
  exact contained.founded.typeExists (mem_compiled_iff.mp member)

end Program.SelfContained

namespace Lowering

open Program (SelfContained)

variable {program : Program}

/-- The registers of an activation have types, and what it invokes exists. -/
structure Activation.Contained (program : Program) (activation : Activation) : Prop where
  registers : ∀ type ∈ activation.body.registers, type < program.types.size
  invokes : activation.body.InvokesBelow program.callees.length

theorem contained_body (contained : program.SelfContained) {callee : Callee}
    (member : callee ∈ program.callees) {activation : Activation}
    (isBody : callee.body? = some activation.body) : activation.Contained program :=
  ⟨contained.founded.registersExist member isBody, contained.invokable callee member _ isBody⟩

/-- What lowering the program can have met: its natives, and results of types
that exist. -/
structure Usage.From (program : Program) (usage : Usage) : Prop where
  natives : ∀ native ∈ usage.natives, .native native ∈ program.callees
  results : ∀ entry ∈ usage.results, entry.2 < program.types.size

/-- A step of lowering fails, if at all, for what the program says. -/
abbrev ConfinedTo (program : Program) (step : Lower α) : Prop :=
  Confined (Usage.From program) LoweringError.InProgram step

theorem link_confined (contained : program.SelfContained) {native : NativeFunction}
    (member : .native native ∈ program.callees) :
    ConfinedTo program (link program.types native) := by
  have prototype : ∀ other : NativeFunction, .native other ∈ program.callees →
      FailsInProgram (program.types.declareFunction other.type (.name other.symbol)) := by
    intro other isCallee
    exact contained.permits.declareFunction_fails (contained.founded.typeExists isCallee) _
  intro before good
  unfold link
  rw [Success.run_bind_ok (rfl : (get : Lower Usage) before = .ok (before, before))]
  cases seen : before.natives.find? (·.symbol == native.symbol) with
  | none =>
      refine ⟨?_, good.results⟩
      intro other isUsed
      rcases List.mem_append.mp isUsed with old | new
      · exact good.natives other old
      · rw [List.mem_singleton.mp new]
        exact member
  | some other =>
      have isCallee := good.natives other (List.mem_of_find?_eq_some seen)
      have compared : ConfinedTo program (do
          let first ← program.types.declareFunction other.type (.name other.symbol)
          let second ← program.types.declareFunction native.type (.name native.symbol)
          if first.text ≠ second.text then
            throw (.symbolClash native.symbol other.name native.name) : Lower Unit) := by
        refine (Confined.lift (prototype other isCallee)).bind fun first => ?_
        refine (Confined.lift (prototype native member)).bind fun second => ?_
        split
        · exact .throw trivial
        · exact .pure _
      exact compared before good

theorem keepResult_confined {type : TypeNumber} (inside : type < program.types.size)
    (name : String) : ConfinedTo program (keepResult name type) := by
  intro before good
  change Usage.From program (if before.results.any (·.1 == name) then before
    else { before with results := before.results ++ [(name, type)] })
  split
  · exact good
  · refine ⟨good.natives, ?_⟩
    intro entry member
    rcases List.mem_append.mp member with old | new
    · exact good.results entry old
    · rw [List.mem_singleton.mp new]
      exact inside

theorem call_confined {symbol name : String} {type : FunctionType} {args targets : List C.Variable}
    (inside : ∀ mentioned ∈ type.mentions, mentioned < program.types.size) :
    ConfinedTo program (call symbol name type args targets) := by
  unfold call
  rcases results : type.results with _ | ⟨single, _ | ⟨second, others⟩⟩
  · exact .pure _
  · have present : single.type < program.types.size := by
      apply inside
      apply List.mem_map_of_mem
      simp [results]
    exact (keepResult_confined present name).bind fun _ => .pure _
  · exact .throw trivial

/-- Whatever inline function of the program is expanded. -/
def ConfinedExpander (program : Program) (expand : Expander) : Prop :=
  ∀ number function args results, .inlined function ∈ program.callees →
    ConfinedTo program (expand number function args results)

section Code

variable {expander : Expander} {activation : Activation}

theorem invoke_confined (contained : program.SelfContained)
    (expands : ConfinedExpander program expander) {number : CalleeNumber}
    (inside : number < program.callees.length) (args results : List RegisterNumber) :
    ConfinedTo program (invoke program expander activation number args results) := by
  obtain ⟨callee, found⟩ : ∃ callee, program.callees[number]? = some callee :=
    ⟨_, List.getElem?_eq_getElem inside⟩
  have member := List.mem_of_getElem? found
  apply contained.permits.invoke_confined found
  · rintro native rfl
    exact link_confined contained member
  · intro symbol args targets
    exact call_confined (contained.founded.typeExists member)
  · rintro function rfl args results
    exact expands number function args results member

theorem blocks_confined (contained : program.SelfContained)
    (expands : ConfinedExpander program expander) (inside : activation.Contained program) :
    ConfinedTo program (blocks program expander activation) := by
  apply contained.permits.blocks_confined
  intro block isBlock callee args results invoked
  exact invoke_confined contained expands
    (inside.invokes block isBlock callee args results invoked) args results

end Code

theorem expand_confined (contained : program.SelfContained) (dormant : List CalleeNumber)
    (chain : List String) :
    ConfinedExpander program (expand program dormant chain) := by
  intro number function args results member
  by_cases isDormant : number ∈ dormant
  · rw [expand_dormant isDormant]
    have inner := expand_confined contained (dormant.erase number) (chain ++ [function.name])
    apply contained.permits.expansion_confined (contained.founded.registersExist member rfl)
    · exact fun before good => ⟨good.natives, good.results⟩
    · intro expansion
      exact blocks_confined contained inner (contained_body contained member rfl)
  · rw [expand_again isDormant]
    exact .throw trivial
termination_by dormant.length
decreasing_by exact length_erase_lt ‹_ ∈ dormant›

theorem code_confined (contained : program.SelfContained) {activation : Activation}
    (inside : activation.Contained program) : ConfinedTo program (code program activation) := by
  rw [code_eq_codeBy]
  exact contained.permits.codeBy_confined
    (blocks_confined contained (expand_confined contained _ _) inside)

section Definitions

variable {function : BodiedFunction} {natives : List NativeFunction}

theorem definition_fails (contained : program.SelfContained)
    (member : .compiled function ∈ program.callees) (own : OwnNatives program natives) :
    FailsInProgram (definition program function natives) := by
  have inside : (definitionOf function).Contained program := contained_body contained member rfl
  have start : Usage.From program ⟨natives, [], 0⟩ := ⟨own, nofun⟩
  exact contained.permits.definition_fails (contained.founded.typeExists member)
    inside.registers (code_confined contained inside) start fun _ ends => ends.results

theorem definitions_fail (contained : program.SelfContained) {functions : List BodiedFunction}
    (members : ∀ function ∈ functions, .compiled function ∈ program.callees)
    (own : OwnNatives program natives) :
    FailsInProgram (definitions program natives functions) := by
  induction functions generalizing natives with
  | nil => exact .ok _
  | cons function later induction =>
      obtain ⟨first, others⟩ := List.forall_mem_cons.mp members
      refine (definition_fails contained first own).bind fun result success => ?_
      refine (induction others (definition_own own success)).bind fun _ _ => ?_
      exact .ok _

end Definitions

end Lowering

namespace Program.SelfContained

variable {program : Program}

theorem source_fails (contained : program.SelfContained) : FailsInProgram program.source := by
  have members : ∀ function ∈ program.compiled, .compiled function ∈ program.callees :=
    fun function member => mem_compiled_iff.mp member
  have none : Lowering.OwnNatives program [] := nofun
  refine (Lowering.definitions_fail contained members none).bind fun result success => ?_
  obtain ⟨definitions, natives⟩ := result
  have own := Lowering.definitions_own none success
  refine FailsOnly.bind (FailsOnly.mapM fun native member => ?_) fun _ _ => .ok _
  exact contained.permits.declareFunction_fails (contained.founded.typeExists (own native member)) _

/-- The output of a program to which nothing is missing fails for what the
program says only. -/
theorem output_fails (contained : program.SelfContained) : FailsInProgram program.output := by
  refine contained.header_fails.bind fun _ _ => ?_
  exact contained.source_fails.bind fun _ _ => .ok _

end Program.SelfContained

end CBackend
