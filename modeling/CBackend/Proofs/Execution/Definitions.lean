import Mathlib.Logic.Function.Basic
import CBackend.Proofs.Execution.Machine
import CBackend.Proofs.Execution.Sight

/-!
# Running definitions

The meaning of a C text that has been read.  Variables are found by their
names, from the innermost block outwards, so that a variable hides every
variable and every function of the same name.  A goto leads to a label of an
open block, and closes the blocks inside it.

What C leaves open has no meaning here either: the machine is stuck at a
name declared twice in a block, at a variable that is not declared, at a
call of a hidden function, at a goto into a block that is not open, and at
the end of a definition that does not return.  Where a type is hidden it is
stuck from the start, since the text cannot be compiled.

Generated items run by what is read of them, and the steps they take are
stated for them.
-/

namespace CBackend

namespace Execution

/-- An open block. -/
structure Scope (Value : Type) where
  /-- The whole block, in which gotos look for labels. -/
  items : List C.Spelled.Item
  /-- What is left to run. -/
  rest : List C.Spelled.Item
  /-- The variables declared so far, by their names. -/
  bindings : String → Option Value
  /-- The number of the register file that the block creates. -/
  number : Nat
  /-- The number of variables that have been given an initial value. -/
  declared : Nat

namespace Scope

/-- A block before its first item. -/
def enter (items : List C.Spelled.Item) (number : Nat) : Scope Value :=
  ⟨items, items, fun _ => none, number, 0⟩

/-- The same block with other items left to run. -/
def withRest (scope : Scope Value) (rest : List C.Spelled.Item) : Scope Value :=
  { scope with rest }

/-- The same block with generated items left to run. -/
def standing (scope : Scope Value) (rest : List C.Item) : Scope Value :=
  scope.withRest (C.spelledItems rest)

def assign (scope : Scope Value) (name : String) (value : Value) : Scope Value :=
  { scope with bindings := Function.update scope.bindings name (some value) }

/-- One more variable, with its initial value. -/
def initialise (setting : Setting Value World) (scope : Scope Value)
    (name : String) : Scope Value :=
  { scope.assign name (setting.initial scope.number scope.declared) with
    declared := scope.declared + 1 }

def declare (setting : Setting Value World) (scope : Scope Value) (name : String) :
    Option (Scope Value) :=
  match scope.bindings name with
  | some _ => none
  | none => some (scope.initialise setting name)

theorem bindings_assign (scope : Scope Value) (name : String) (value : Value) :
    (scope.assign name value).bindings name = some value := by
  simp [assign]

theorem bindings_assign_of_ne (scope : Scope Value) {name other : String}
    (different : other ≠ name) (value : Value) :
    (scope.assign name value).bindings other = scope.bindings other := by
  simp [assign, different]

end Scope

/-- The items from a label on. -/
def fromLabel (label : String) : List C.Spelled.Item → Option (List C.Spelled.Item)
  | [] => none
  | item :: later =>
    if item.label? = some label then some (item :: later) else fromLabel label later

/-- The open blocks, innermost first. -/
abbrev Scopes (Value : Type) := List (Scope Value)

namespace Scopes

def read (scopes : Scopes Value) (name : String) : Option Value :=
  scopes.findSome? (·.bindings name)

def write (name : String) (value : Value) : Scopes Value → Option (Scopes Value)
  | [] => none
  | scope :: outer =>
    match scope.bindings name with
    | some _ => some (scope.assign name value :: outer)
    | none => (write name value outer).map (scope :: ·)

def goto (label : String) : Scopes Value → Option (Scopes Value)
  | [] => none
  | scope :: outer =>
    match fromLabel label scope.items with
    | some rest => some (scope.withRest rest :: outer)
    | none => goto label outer

section Names

variable {scope : Scope Value} {outer : Scopes Value} {name : String}

theorem read_here {value : Value} (found : scope.bindings name = some value) :
    read (scope :: outer) name = some value := by
  simp [read, found]

theorem read_outside (absent : scope.bindings name = none) :
    read (scope :: outer) name = read outer name := by
  simp [read, absent]

theorem write_here {old : Value} (found : scope.bindings name = some old)
    (value : Value) :
    write name value (scope :: outer) = some (scope.assign name value :: outer) := by
  simp [write, found]

theorem write_standing {old : Value} (found : scope.bindings name = some old)
    (value : Value) (rest : List C.Item) :
    write name value (scope.standing rest :: outer) =
      some ((scope.assign name value).standing rest :: outer) := by
  have foundHere : (scope.standing rest).bindings name = some old := found
  exact write_here foundHere value

theorem goto_here {label : String} {found : List C.Item}
    (search : fromLabel label scope.items = some (C.spelledItems found))
    (rest : List C.Item) :
    goto label (scope.standing rest :: outer) =
      some (scope.standing found :: outer) := by
  have searchHere : fromLabel label (scope.standing rest).items =
      some (C.spelledItems found) := search
  simp only [goto, searchHere]
  rfl

theorem write_outside (absent : scope.bindings name = none) {value : Value}
    {written : Scopes Value} (success : write name value outer = some written) :
    write name value (scope :: outer) = some (scope :: written) := by
  simp [write, absent, success]

end Names

variable (setting : Setting Value World)

def run (scopes : Scopes Value) (effects : Effects Value World) :
    C.Spelled.Statement → Option (State (Scopes Value) Value World)
  | .move target source => do
    let value ← scopes.read source
    return .running (← scopes.write target value) effects
  | .compute target left operator right => do
    let first ← scopes.read left
    let second ← scopes.read right
    let value := setting.compute operator first second
    return .running (← scopes.write target value) effects
  | .branch left test right target => do
    let first ← scopes.read left
    let second ← scopes.read right
    if setting.holds test first second then
      return .running (← scopes.goto target) effects
    else return .running scopes effects
  | .goto target => return .running (← scopes.goto target) effects
  | .call target symbol args => do
    let values ← args.mapM scopes.read
    match scopes.read symbol, effects.calling setting symbol values, target with
    | some _, _, _ => none
    | none, (_, effects), none => return .running scopes effects
    | none, (value, effects), some target =>
      return .running (← scopes.write target value) effects
  | .leave none => return .returned [] effects
  | .leave (some value) => return .returned [← scopes.read value] effects

/-- One step: an item, or the end of a nested block. -/
def step : Step (Scopes Value) Value World := fun scopes effects =>
  match scopes with
  | [] => .stuck effects
  | scope :: outer =>
    match scope.rest with
    | [] => if outer.isEmpty then .stuck effects else .running outer effects
    | .declare declaration :: rest =>
      match (scope.withRest rest).declare setting declaration.declarator.declared with
      | some scope => .running (scope :: outer) effects
      | none => .stuck effects
    | .label _ :: rest | .emptyLabel _ :: rest =>
      .running (scope.withRest rest :: outer) effects
    | .block items :: rest =>
      .running (.enter items effects.created :: scope.withRest rest :: outer)
        effects.creating
    | .statement statement :: rest =>
      (run setting (scope.withRest rest :: outer) effects statement).getD
        (.stuck effects)

private theorem run_calls {scopes : Scopes Value} {effects : Effects Value World}
    {statement : C.Spelled.Statement} {state : State (Scopes Value) Value World}
    (success : run setting scopes effects statement = some state) :
    effects.calls <+: state.effects.calls := by
  cases statement with
  | move target source =>
      simp only [run, Option.bind_eq_bind, Option.bind_eq_some_iff] at success
      obtain ⟨_, _, _, _, same⟩ := success
      cases same
      exact List.prefix_rfl
  | compute target left operator right =>
      simp only [run, Option.bind_eq_bind, Option.bind_eq_some_iff] at success
      obtain ⟨_, _, _, _, _, _, same⟩ := success
      cases same
      exact List.prefix_rfl
  | branch left test right target =>
      simp only [run, Option.bind_eq_bind, Option.bind_eq_some_iff] at success
      obtain ⟨_, _, _, _, success⟩ := success
      split at success
      · obtain ⟨_, _, same⟩ := Option.bind_eq_some_iff.mp success
        cases same
        exact List.prefix_rfl
      · cases success
        exact List.prefix_rfl
  | goto target =>
      simp only [run, Option.bind_eq_bind, Option.bind_eq_some_iff] at success
      obtain ⟨_, _, same⟩ := success
      cases same
      exact List.prefix_rfl
  | call target symbol args =>
      simp only [run, Option.bind_eq_bind, Option.bind_eq_some_iff] at success
      obtain ⟨values, _, success⟩ := success
      split at success
      · cases success
      · rename_i called
        cases success
        cases called
        exact List.prefix_append _ _
      · rename_i called
        simp only [Option.bind_eq_some_iff] at success
        obtain ⟨_, _, same⟩ := success
        cases same
        cases called
        exact List.prefix_append _ _
  | leave value =>
      cases value with
      | none =>
          cases success
          exact List.prefix_rfl
      | some value =>
          simp only [run, Option.bind_eq_bind, Option.bind_eq_some_iff] at success
          obtain ⟨_, _, same⟩ := success
          cases same
          exact List.prefix_rfl

section Items

variable {setting} (scope : Scope Value) (outer : Scopes Value)
  (effects : Effects Value World) (rest : List C.Item)

theorem step_label (label : C.Label) :
    step setting (scope.standing (.label label :: rest) :: outer) effects =
      .running (scope.standing rest :: outer) effects := rfl

theorem step_emptyLabel (label : C.Label) :
    step setting (scope.standing (.emptyLabel label :: rest) :: outer) effects =
      .running (scope.standing rest :: outer) effects := rfl

theorem step_block (items : List C.Item) :
    step setting (scope.standing (.block items :: rest) :: outer) effects =
      .running (.enter (C.spelledItems items) effects.created ::
        scope.standing rest :: outer)
        effects.creating := rfl

theorem step_end (next : Scope Value) :
    step setting (scope.standing [] :: next :: outer) effects =
      .running (next :: outer) effects := rfl

section Statements

variable {scopes written : Scopes Value} {target left right : C.Variable}
  {first second : Value}

theorem run_move (reads : scopes.read right.text = some second)
    (writes : scopes.write target.text second = some written) :
    run setting scopes effects (C.Statement.spelled (.move target right)) =
      some (.running written effects) := by
  simp [run, C.Statement.spelled, reads, writes]

theorem run_compute {operator : Operator}
    (readsFirst : scopes.read left.text = some first)
    (readsSecond : scopes.read right.text = some second)
    (writes : scopes.write target.text (setting.compute operator first second) =
      some written) :
    run setting scopes effects (C.Statement.spelled (.compute target left operator right)) =
      some (.running written effects) := by
  simp [run, C.Statement.spelled, readsFirst, readsSecond, writes]

theorem run_branch {test : Comparison} {label : C.Label}
    (readsFirst : scopes.read left.text = some first)
    (readsSecond : scopes.read right.text = some second)
    (found : scopes.goto label.text = some written) :
    run setting scopes effects (C.Statement.spelled (.branch left test right label)) =
      some (.running (if setting.holds test first second then written else scopes)
        effects) := by
  by_cases holds : setting.holds test first second = true <;>
    simp [run, C.Statement.spelled, readsFirst, readsSecond, found, holds]

theorem run_goto {label : C.Label} (found : scopes.goto label.text = some written) :
    run setting scopes effects (C.Statement.spelled (.goto label)) =
      some (.running written effects) := by
  simp [run, C.Statement.spelled, found]

theorem run_call {symbol : String} {args : List C.Variable} {values : List Value}
    (reads : (args.map C.Variable.text).mapM scopes.read = some values)
    (visible : scopes.read symbol = none) :
    run setting scopes effects (C.Statement.spelled (.call none symbol args)) =
      some (.running scopes (effects.calling setting symbol values).2) := by
  simp only [run, C.Statement.spelled, reads, visible, Option.bind_eq_bind, Option.bind_some]
  rfl

theorem run_callInto {symbol : String} {args : List C.Variable}
    {values : List Value}
    (reads : (args.map C.Variable.text).mapM scopes.read = some values)
    (visible : scopes.read symbol = none)
    (writes : scopes.write target.text
      (effects.calling setting symbol values).1 = some written) :
    run setting scopes effects (C.Statement.spelled (.call (some target) symbol args)) =
      some (.running written (effects.calling setting symbol values).2) := by
  simp only [run, C.Statement.spelled, reads, visible, writes, Option.bind_eq_bind,
    Option.bind_some, Option.map_some]
  rfl

theorem run_leaveWith (reads : scopes.read left.text = some first) :
    run setting scopes effects (C.Statement.spelled (.leave (some left))) =
      some (.returned [first] effects) := by
  simp [run, C.Statement.spelled, reads]

end Statements

theorem step_statement {statement : C.Statement}
    {state : State (Scopes Value) Value World}
    (success : run setting (scope.standing rest :: outer) effects statement.spelled =
      some state) :
    step setting (scope.standing (.statement statement :: rest) :: outer) effects =
      state :=
  congrArg (·.getD (.stuck effects)) success

theorem step_declare {declaration : C.Declaration}
    (absent : scope.bindings declaration.declarator.declared = none) :
    step setting (scope.standing (.declare declaration :: rest) :: outer) effects =
      .running ((scope.initialise setting
        declaration.declarator.declared).standing rest :: outer) effects := by
  simp only [step, Scope.standing, Scope.withRest, C.spelledItems, C.Item.spelled,
    Scope.declare, absent]
  rfl

end Items

theorem step_callsGrow : (step setting).CallsGrow := by
  intro scopes effects
  unfold step
  split
  · exact List.prefix_rfl
  · rename_i scope outer
    split
    · split <;> exact List.prefix_rfl
    · split <;> exact List.prefix_rfl
    · exact List.prefix_rfl
    · exact List.prefix_rfl
    · exact List.prefix_rfl
    · rename_i statement rest _
      cases ran : run setting (scope.withRest rest :: outer) effects statement with
      | none => exact List.prefix_rfl
      | some state => exact run_calls setting ran

end Scopes

/-- A definition of a source at its start.  All types have to be in sight; the
parameters are in the outermost block, and there must be an argument for
each. -/
def startDefinition (source : C.Spelled.Source) (definition : C.Spelled.Definition)
    (args : List Value) (world : World) : State (Scopes Value) Value World :=
  if source.seesTypes ∧ definition.paramNames.Nodup ∧
      definition.paramNames.length = args.length then
    .running [⟨definition.items, definition.items,
      fun name => (definition.paramNames.zip args).lookup name, 0, 0⟩] (.start world)
  else .stuck (.start world)

/-- The run of a definition. -/
def definitionRun (setting : Setting Value World) (source : C.Spelled.Source)
    (definition : C.Spelled.Definition) (args : List Value) (world : World) :
    Run (Scopes Value) Value World :=
  (Scopes.step setting).runFrom (startDefinition source definition args world)

end Execution

end CBackend
