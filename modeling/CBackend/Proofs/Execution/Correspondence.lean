import CBackend.Proofs.Execution.Entry
import CBackend.Proofs.Execution.Jumps

/-!
# Frames and blocks

While a definition runs, its open blocks correspond to the frames of the body
one by one: the outermost block to the function itself, and every nested
block to an inline expansion.  Each block holds the registers of its frame,
and what is left of it was emitted for what is left of the frame.

A nested block knows nothing about the frame around it except where its
results go, and it declares no name that is used outside.
-/

namespace CBackend

/-- A name is spelled like a register or a temporary. -/
def Program.SpelledLikeLocal (program : Program) (name : String) : Prop :=
  (∃ owner number, name = (C.Variable.register owner number).text) ∨
    ∃ callee ∈ program.callees, name = (C.Variable.result callee.name).text

/-- The function itself and the inline functions that it expands, directly
or inside others. -/
inductive Program.Expands (program : Program) (root : BodiedFunction) :
    BodiedFunction → Prop where
  | root : Expands program root root
  | inlined {outer inner : BodiedFunction} {number : CalleeNumber}
      {args results : List RegisterNumber}
      (outside : Expands program root outer)
      (invoked : Instruction.invoke number args results ∈ outer.body.instructions)
      (found : program.callees[number]? = some (.inlined inner)) :
      Expands program root inner

/-- Branches and jumps go to blocks that exist. -/
def Body.TargetsExist (body : Body) : Prop :=
  ∀ instruction ∈ body.instructions, ∀ target ∈ instruction.target?,
    target < body.blocks.length

instance (body : Body) : Decidable body.TargetsExist :=
  inferInstanceAs (Decidable (∀ instruction ∈ body.instructions,
    ∀ target ∈ instruction.target?, target < body.blocks.length))

namespace Execution

open Lowering

/-- The names that the block of an owner may declare. -/
def Owns (program : Program) : C.Owner → String → Prop
  | .function, name =>
    Parameters.isUsable program.globals name = true ∨ program.SpelledLikeLocal name
  | .expansion number, name =>
    ∃ register, name = (C.Variable.register (.expansion number) register).text

theorem owns_register (program : Program) (owner : C.Owner)
    (number : RegisterNumber) :
    Owns program owner (C.Variable.register owner number).text := by
  cases owner with
  | function => exact .inr (.inl ⟨_, _, rfl⟩)
  | expansion _ => exact ⟨_, rfl⟩

section Relation

variable (program : Program) (root : BodiedFunction) (stored : List String)

/-- What is left of a block was emitted for what is left of a frame. -/
structure Position (owner : C.Owner) (frame : Frame Value)
    (ending rest : List C.Item) : Prop where
  inside : ∀ instruction ∈ frame.code ++ frame.later.flatten,
    instruction ∈ frame.function.body.instructions
  /-- Without an ending, control never gets to the end. -/
  diverts : ending = [] →
    (frame.code :: frame.later).getLast?.any Block.divertsControl = true
  emitted : ∃ dormant before after first items, rest = items ++ ending ∧
    owner.rank ≤ before.expansions ∧ after.keptResults ⊆ stored ∧
    Emits program dormant (activationOf frame.function owner) before
      (frame.code.map .run ++ linesFrom first frame.later) items after

/-- A block belongs to a frame, wherever the two have got to. -/
structure Layer (owner : C.Owner) (frame : Frame Value) (ending : List C.Item)
    (scope : Scope Value) : Prop where
  expands : program.Expands root frame.function
  enough : frame.function.type.params.length + frame.function.type.results.length ≤
    frame.function.body.registers.length
  holds : Holds (activationOf frame.function owner) frame scope
  owned : ∀ name, scope.bindings name ≠ none → Owns program owner name
  diverts : ending = [] →
    frame.function.body.blocks.getLast?.any Block.divertsControl = true
  laid : ∃ dormant before after header code,
    scope.items = C.spelledItems (header ++ (code ++ ending)) ∧
    (∀ item ∈ header, item.label? = none) ∧
    owner.rank ≤ before.expansions ∧ after.keptResults ⊆ stored ∧
    Emits program dormant (activationOf frame.function owner) before
      frame.function.body.lines code after

/-- The open blocks belong to the frames.  The outer ones stand where their
frames wait; nothing is said about where the innermost has got to. -/
inductive Stacked : C.Owner → List C.Item → Frame Value → List (Frame Value) →
    Scope Value → Scopes Value → Prop where
  | definition {ending : List C.Item} {frame : Frame Value} {scope : Scope Value}
      (layer : Layer program root stored .function frame ending scope)
      (ends : EndsWith (definitionOf frame.function) ending)
      (temporaries : ∀ callee ∈ stored, ∃ value,
        scope.bindings (C.Variable.result callee).text = some value) :
      Stacked .function ending frame [] scope []
  | expansion {owner : C.Owner} {outerEnding : List C.Item}
      {caller frame : Frame Value} {callers : List (Frame Value)}
      {next scope : Scope Value} {outer : Scopes Value} {number : Nat}
      {rest : List C.Item}
      (outside : Stacked owner outerEnding caller callers next outer)
      (waits : Position program stored owner caller outerEnding rest)
      (fresh : owner.rank ≤ number)
      (receives : (activationOf caller.function owner).Declares frame.results)
      (resultCount : frame.results.length = frame.function.type.results.length)
      (layer : Layer program root stored (.expansion number) frame
        (finishing frame.function number
          (frame.results.map (activationOf caller.function owner).slot)) scope) :
      Stacked (.expansion number)
        (finishing frame.function number
          (frame.results.map (activationOf caller.function owner).slot))
        frame (caller :: callers) scope (next.standing rest :: outer)

/-- Frames and open blocks that have got to the same place. -/
inductive Related : Frames Value → Scopes Value → Prop where
  | mk {owner : C.Owner} {ending : List C.Item} {frame : Frame Value}
      {callers : List (Frame Value)} {scope : Scope Value} {outer : Scopes Value}
      {rest : List C.Item}
      (stacked : Stacked program root stored owner ending frame callers scope outer)
      (position : Position program stored owner frame ending rest) :
      Related ⟨frame, callers⟩ (scope.standing rest :: outer)

end Relation

section Preservation

variable {program : Program} {root : BodiedFunction} {stored : List String}
  {owner : C.Owner} {ending : List C.Item} {frame : Frame Value}
  {callers : List (Frame Value)} {scope : Scope Value} {outer : Scopes Value}

namespace Layer

/-- What is left of a frame plays no part in a layer. -/
theorem moved (layer : Layer program root stored owner frame ending scope)
    (code : Block) (later : List Block) :
    Layer program root stored owner { frame with code, later } ending scope where
  expands := layer.expands
  enough := layer.enough
  holds := ⟨layer.holds.size, layer.holds.values⟩
  owned := layer.owned
  diverts := layer.diverts
  laid := layer.laid

theorem write_register (layer : Layer program root stored owner frame ending scope)
    (number : RegisterNumber) (value : Value) :
    Layer program root stored owner
      { frame with registers := frame.registers.set number value } ending
      (scope.assign ((activationOf frame.function owner).slot number).text value) where
  expands := layer.expands
  enough := layer.enough
  holds := by
    constructor
    · rw [List.length_set]
      exact layer.holds.size
    · intro other inside
      rw [Frame.read, List.getElem?_set]
      by_cases same : number = other
      · rw [if_pos same, ← same, Scope.bindings_assign, if_pos]
        rw [layer.holds.size, same]
        exact inside
      · have different : ((activationOf frame.function owner).slot other).text ≠
            ((activationOf frame.function owner).slot number).text := by
          intro text
          exact same (slot_text_injective text).symm
        rw [if_neg same, Scope.bindings_assign_of_ne _ different]
        exact layer.holds.values other inside
  owned := by
    intro name bound
    by_cases same : name = ((activationOf frame.function owner).slot number).text
    · rw [same]
      exact owns_register program owner number
    · rw [Scope.bindings_assign_of_ne _ same] at bound
      exact layer.owned name bound
  diverts := layer.diverts
  laid := layer.laid

/-- Variables that are no registers may change. -/
theorem write_temporary
    (layer : Layer program root stored owner frame ending scope)
    {name : String} {old : Value} (bound : scope.bindings name = some old)
    (foreign : ∀ number,
      ((activationOf frame.function owner).slot number).text ≠ name)
    (value : Value) :
    Layer program root stored owner frame ending (scope.assign name value) where
  expands := layer.expands
  enough := layer.enough
  holds := by
    refine ⟨layer.holds.size, ?_⟩
    intro number inside
    rw [Scope.bindings_assign_of_ne _ (foreign number)]
    exact layer.holds.values number inside
  owned := by
    intro other otherBound
    by_cases same : other = name
    · rw [same]
      apply layer.owned
      rw [bound]
      simp
    · rw [Scope.bindings_assign_of_ne _ same] at otherBound
      exact layer.owned other otherBound
  diverts := layer.diverts
  laid := layer.laid

end Layer

/-- A register that exists has a value. -/
theorem Holds.read_declared {activation : Activation}
    (holds : Holds activation frame scope) {number : RegisterNumber}
    (declared : number < activation.body.registers.length) :
    ∃ value, frame.read number = some value ∧
      scope.bindings (activation.slot number).text = some value := by
  have inside : number < frame.registers.length := by
    rw [holds.size]
    exact declared
  refine ⟨_, List.getElem?_eq_getElem inside, ?_⟩
  rw [holds.values number declared]
  exact List.getElem?_eq_getElem inside

namespace Stacked

theorem layer
    (stacked : Stacked program root stored owner ending frame callers scope outer) :
    Layer program root stored owner frame ending scope := by
  cases stacked with
  | definition layer _ _ => exact layer
  | expansion _ _ _ _ _ layer => exact layer

/-- The innermost layer may be replaced by another of the same function. -/
theorem replace
    (stacked : Stacked program root stored owner ending frame callers scope outer)
    {newFrame : Frame Value} {newScope : Scope Value}
    (sameFunction : newFrame.function = frame.function)
    (sameResults : newFrame.results = frame.results)
    (bound : ∀ name value, scope.bindings name = some value →
      ∃ value, newScope.bindings name = some value)
    (layer : Layer program root stored owner newFrame ending newScope) :
    Stacked program root stored owner ending newFrame callers newScope outer := by
  obtain ⟨function, code, later, registers, results⟩ := newFrame
  simp only at sameFunction sameResults
  subst sameFunction sameResults
  cases stacked with
  | definition _ ends temporaries =>
      refine .definition layer ends ?_
      intro callee member
      obtain ⟨value, found⟩ := temporaries callee member
      exact bound _ value found
  | expansion outside waits fresh receives resultCount _ =>
      refine .expansion outside waits fresh ?_ ?_ layer
      · exact receives
      · exact resultCount

theorem moved
    (stacked : Stacked program root stored owner ending frame callers scope outer)
    (code : Block) (later : List Block) :
    Stacked program root stored owner ending { frame with code, later } callers scope
      outer :=
  stacked.replace rfl rfl (fun _ value found => ⟨value, found⟩)
    (stacked.layer.moved code later)

theorem write_register
    (stacked : Stacked program root stored owner ending frame callers scope outer)
    (number : RegisterNumber) (value : Value) :
    Stacked program root stored owner ending
      { frame with registers := frame.registers.set number value } callers
      (scope.assign ((activationOf frame.function owner).slot number).text value)
      outer := by
  refine stacked.replace rfl rfl ?_ (stacked.layer.write_register number value)
  intro name old found
  by_cases same : name = ((activationOf frame.function owner).slot number).text
  · rw [same]
    exact ⟨value, Scope.bindings_assign _ _ _⟩
  · rw [Scope.bindings_assign_of_ne _ same]
    exact ⟨old, found⟩

/-- Temporaries are found in the outermost block. -/
theorem write_temporary
    (stacked : Stacked program root stored owner ending frame callers scope outer)
    {callee : String} (member : callee ∈ stored) (value : Value) (rest : List C.Item) :
    ∃ newScope newOuter,
      Scopes.write (C.Variable.result callee).text value (scope.standing rest :: outer) =
        some (newScope.standing rest :: newOuter) ∧
      Stacked program root stored owner ending frame callers newScope newOuter ∧
      Scopes.read (newScope.standing rest :: newOuter)
        (C.Variable.result callee).text = some value := by
  induction stacked generalizing rest with
  | @definition ending frame scope layer ends temporaries =>
      obtain ⟨old, bound⟩ := temporaries callee member
      have foreign : ∀ number, ((definitionOf frame.function).slot number).text ≠
          (C.Variable.result callee).text := by
        intro number
        exact C.Variable.register_text_ne_result_text _ _ _
      refine ⟨_, [], Scopes.write_standing bound value rest,
        .definition (layer.write_temporary bound foreign value) ends ?_,
        Scopes.read_here (Scope.bindings_assign _ _ _)⟩
      intro other otherMember
      by_cases same : (C.Variable.result other).text = (C.Variable.result callee).text
      · rw [same]
        exact ⟨value, Scope.bindings_assign _ _ _⟩
      · rw [Scope.bindings_assign_of_ne _ same]
        exact temporaries other otherMember
  | @expansion _ _ _ _ _ _ scope _ _ waiting outside waits fresh receives resultCount
      layer induction =>
      obtain ⟨newNext, newOuter, written, stacked, reads⟩ := induction waiting
      have absent : (scope.standing rest).bindings (C.Variable.result callee).text =
          none := by
        by_contra bound
        obtain ⟨register, same⟩ := layer.owned _ bound
        exact C.Variable.register_text_ne_result_text _ _ _ same.symm
      refine ⟨scope, newNext.standing waiting :: newOuter,
        Scopes.write_outside absent written,
        .expansion stacked waits fresh receives resultCount layer, ?_⟩
      rw [Scopes.read_outside absent]
      exact reads

/-- No open block hides the symbol of a function. -/
theorem read_symbol
    (stacked : Stacked program root stored owner ending frame callers scope outer)
    {symbol : String} (global : symbol ∈ program.globals)
    (distinct : ¬ program.SpelledLikeLocal symbol) :
    Scopes.read (scope :: outer) symbol = none := by
  induction stacked with
  | @definition _ _ scope layer _ _ =>
      have absent : scope.bindings symbol = none := by
        by_contra bound
        rcases layer.owned _ bound with usable | spelled
        · simp [Parameters.isUsable, global] at usable
        · exact distinct spelled
      rw [Scopes.read_outside absent]
      rfl
  | @expansion _ _ _ _ _ _ scope _ _ _ _ _ _ _ _ layer induction =>
      have absent : scope.bindings symbol = none := by
        by_contra bound
        obtain ⟨register, same⟩ := layer.owned _ bound
        exact distinct (.inl ⟨_, _, same⟩)
      rw [Scopes.read_outside absent]
      exact induction

end Stacked

/-- The block of an expansion declares no register of the frame around it. -/
theorem Layer.outside_absent {number : Nat} {inner : Frame Value}
    (layer : Layer program root stored (.expansion number) inner ending scope)
    (fresh : owner.rank ≤ number) (function : BodiedFunction)
    (register : RegisterNumber) :
    scope.bindings ((activationOf function owner).slot register).text = none := by
  by_contra bound
  obtain ⟨other, same⟩ := layer.owned _ bound
  have owners := (C.Variable.register_text_injective same).1
  have rank : owner.rank = number + 1 := congrArg C.Owner.rank owners
  omega

end Preservation

end Execution

end CBackend
