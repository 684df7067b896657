import CBackend.Proofs.C.Spelled
import CBackend.Proofs.Lowering.Regions

/-!
# What C expects of a text

The regions of a definition that has been read are found as in the tree: the
nested blocks of a region belong to the inlined invocations of its body, in
order.  A region has a role, which says whose registers it declares, which
body it was lowered for, and which variables arguments come from and results
go to.

From the role follows, statement by statement, which variables a region has
to mention.  A region is `Closed` when these are the variables that it
mentions, when each of them is found in the block it belongs to, and when
labels, gotos and names are what C expects them to be.
-/

namespace CBackend

namespace C.Spelled

/-- The label in front of an item. -/
def Item.label? : Item → Option String
  | .label name | .emptyLabel name => some name
  | .declare _ | .statement _ | .block _ => none

/-- The label that an item may go to. -/
def Item.goto? : Item → Option String
  | .statement (.goto target) | .statement (.branch _ _ _ target) => some target
  | _ => none

def Item.block? : Item → Option (List Item)
  | .block items => some items
  | .declare _ | .statement _ | .label _ | .emptyLabel _ => none

def Item.statement? : Item → Option Statement
  | .statement found => some found
  | .declare _ | .label _ | .emptyLabel _ | .block _ => none

/-- The name that an item declares. -/
def Item.declared? : Item → Option String
  | .declare declaration => some declaration.declarator.declared
  | .statement _ | .label _ | .emptyLabel _ | .block _ => none

mutual

/-- The labels at and inside an item. -/
def Item.labels : Item → List String
  | .label name | .emptyLabel name => [name]
  | .declare _ | .statement _ => []
  | .block items => itemsLabels items

def itemsLabels : List Item → List String
  | [] => []
  | item :: later => item.labels ++ itemsLabels later

end

/-- Everything a statement reads or assigns. -/
def Statement.variables : Statement → List String
  | .move target source => [target, source]
  | .compute target left _ right => [target, left, right]
  | .branch left _ right _ => [left, right]
  | .goto _ => []
  | .call target _ args => target.toList ++ args
  | .leave value => value.toList

def Definition.paramNames (definition : Definition) : List String :=
  definition.head.declarator.parameters.map (·.declarator.declared)

/-- The names declared in the block of an owner once the front of its items
has been read. -/
def Definition.namesAfter (definition : Definition) (front : List Item) :
    Owner → List String
  | .function => definition.paramNames ++ front.filterMap Item.declared?
  | .expansion _ => front.filterMap Item.declared?

end C.Spelled

namespace C

theorem Item.label?_spelled (item : Item) :
    item.spelled.label? = item.label?.map Label.text := by
  cases item <;> rfl

theorem Item.goto?_spelled (item : Item) :
    item.spelled.goto? = item.goto?.map Label.text := by
  cases item with
  | statement statement => cases statement <;> rfl
  | declare _ => rfl
  | label _ => rfl
  | emptyLabel _ => rfl
  | block _ => rfl

theorem Item.block?_spelled (item : Item) :
    item.spelled.block? = item.block?.map spelledItems := by
  cases item <;> rfl

theorem Item.statement?_spelled (item : Item) :
    item.spelled.statement? = item.statement?.map Statement.spelled := by
  cases item <;> rfl

theorem Item.declared?_spelled (item : Item) :
    item.spelled.declared? = item.declared? := by
  cases item <;> rfl

theorem Statement.variables_spelled (statement : Statement) :
    statement.spelled.variables = statement.variables.map Variable.text := by
  cases statement with
  | call target symbol args => cases target <;> rfl
  | leave value => cases value <;> rfl
  | move _ _ => rfl
  | compute _ _ _ _ => rfl
  | branch _ _ _ _ => rfl
  | goto _ => rfl

theorem Item.of_spelled_block {item : Item} {items : List Spelled.Item}
    (spelled : .block items = item.spelled) :
    ∃ inner, item = .block inner ∧ items = spelledItems inner := by
  cases item <;> cases spelled
  exact ⟨_, rfl, rfl⟩

theorem Item.of_spelled_label {item : Item} {name : String}
    (spelled : .label name = item.spelled) :
    ∃ label, item = .label label ∧ name = label.text := by
  cases item <;> cases spelled
  exact ⟨_, rfl, rfl⟩

theorem Item.of_spelled_emptyLabel {item : Item} {name : String}
    (spelled : .emptyLabel name = item.spelled) :
    ∃ label, item = .emptyLabel label ∧ name = label.text := by
  cases item <;> cases spelled
  exact ⟨_, rfl, rfl⟩

theorem Item.of_spelled_statement {item : Item} {statement : Spelled.Statement}
    (spelled : .statement statement = item.spelled) :
    ∃ inner, item = .statement inner ∧ statement = inner.spelled := by
  cases item <;> cases spelled
  exact ⟨_, rfl, rfl⟩

/-- What is seen of items that have been spelled is seen of the items. -/
theorem filterMap_spelledItems {view : Spelled.Item → Option β}
    {inner : Item → Option α} {spell : α → β}
    (spelled : ∀ item, view item.spelled = (inner item).map spell) (items : List Item) :
    (spelledItems items).filterMap view = (items.filterMap inner).map spell := by
  rw [spelledItems_eq_map, List.filterMap_map, List.map_filterMap]
  exact congrArg (List.filterMap · items) (funext spelled)

theorem filterMap_declared?_spelledItems (items : List Item) :
    (spelledItems items).filterMap Spelled.Item.declared? =
      items.filterMap Item.declared? := by
  rw [spelledItems_eq_map, List.filterMap_map]
  exact congrArg (List.filterMap · items) (funext Item.declared?_spelled)

theorem variables_spelledItems (items : List Item) :
    ((spelledItems items).filterMap Spelled.Item.statement?).map
        Spelled.Statement.variables =
      (itemsMentions items).map (·.map Variable.text) := by
  rw [filterMap_spelledItems Item.statement?_spelled, itemsMentions, List.map_map,
    List.map_map]
  exact congrArg (List.map · _) (funext Statement.variables_spelled)

mutual

theorem Item.labels_spelled (item : Item) :
    item.spelled.labels = item.labels.map Label.text := by
  cases item with
  | block items => exact itemsLabels_spelledItems items
  | label _ => rfl
  | emptyLabel _ => rfl
  | declare _ => rfl
  | statement _ => rfl

theorem itemsLabels_spelledItems (items : List Item) :
    Spelled.itemsLabels (spelledItems items) = (itemsLabels items).map Label.text := by
  cases items with
  | nil => rfl
  | cons item later =>
      rw [spelledItems, Spelled.itemsLabels, itemsLabels, List.map_append,
        Item.labels_spelled item, itemsLabels_spelledItems later]

end

theorem spelledItems_split {items : List Item} {front back : List Spelled.Item}
    {item : Spelled.Item} (same : spelledItems items = front ++ item :: back) :
    ∃ before here after, items = before ++ here :: after ∧
      front = spelledItems before ∧ item = here.spelled ∧ back = spelledItems after := by
  rw [spelledItems_eq_map] at same
  obtain ⟨before, rest, rfl, isFront, isRest⟩ := List.map_eq_append_iff.mp same
  obtain ⟨here, after, rfl, isItem, isBack⟩ := List.map_eq_cons_iff.mp isRest
  refine ⟨before, here, after, rfl, ?_, isItem.symm, ?_⟩
  · rw [spelledItems_eq_map, isFront]
  · rw [spelledItems_eq_map, isBack]

theorem Definition.namesAfter_spelled (definition : Definition) (front : List Item)
    (owner : Owner) :
    definition.spelled.namesAfter (spelledItems front) owner =
      definition.namesAfter front owner := by
  cases owner with
  | function =>
      rw [Spelled.Definition.namesAfter, filterMap_declared?_spelledItems]
      rfl
  | expansion _ => exact filterMap_declared?_spelledItems front

end C

/-- What a region was lowered for. -/
structure Role where
  owner : C.Owner
  function : BodiedFunction
  /-- The variables that are copied into the first registers. -/
  sources : List C.Variable
  /-- The variables that the results are copied to. -/
  targets : List C.Variable

namespace Role

def register (role : Role) : RegisterNumber → C.Variable := .register role.owner

/-- What leaving the body mentions: a definition returns its result, and an
expansion goes to its end. -/
def leaving (role : Role) : List C.Variable :=
  match role.owner with
  | .function => (List.range' role.function.type.params.length
      role.function.type.results.length).map role.register
  | .expansion _ => []

/-- What a call mentions, and the copies of its result from the temporary of
the callee. -/
def calling (role : Role) (callee : Callee) (args results : List RegisterNumber) :
    List (List C.Variable) :=
  if callee.type.results.isEmpty then [args.map role.register]
  else (.result callee.name :: args.map role.register) ::
    results.map fun target => [role.register target, .result callee.name]

/-- What the statements for an instruction mention.  An inlined invocation has
no statement of its own. -/
def running (role : Role) (program : Program) : Instruction → List (List C.Variable)
  | .compute _ target left right => [[target, left, right].map role.register]
  | .branch _ _ left right => [[left, right].map role.register]
  | .jump _ => [[]]
  | .leave => [role.leaving]
  | .invoke number args results =>
    match program.callees[number]? with
    | some (.native function) => role.calling (.native function) args results
    | some (.compiled function) => role.calling (.compiled function) args results
    | some (.inlined _) | none => []

/-- Copies of arguments into the first registers. -/
def entering (role : Role) : List (List C.Variable) :=
  role.sources.zipIdx.map fun (source, number) => [role.register number, source]

/-- What stands after the code of the body: a definition returns, unless
control never gets there, and an expansion copies its results. -/
def ending (role : Role) : List (List C.Variable) :=
  match role.owner with
  | .function =>
    if role.function.body.blocks.getLast?.any Block.divertsControl then []
    else [role.leaving]
  | .expansion _ => role.targets.zipIdx.map fun (target, index) =>
    [target, role.register (role.function.type.params.length + index)]

/-- What a region mentions, statement by statement. -/
def mentions (role : Role) (program : Program) : List (List C.Variable) :=
  role.entering ++ (role.function.body.instructions.flatMap (role.running program) ++
    role.ending)

end Role

namespace Lowering

open C (Owner Naming Variable)
open C.Spelled (Definition Item)

/-- The regions of a definition that has been read, each with the names
declared around it and its role. -/
inductive TextRegion (program : Program) (root : BodiedFunction)
    (definition : Definition) : Naming → Role → List Item → Prop where
  | whole : TextRegion program root definition []
      ⟨.function, root, definition.paramNames.map .param, []⟩ definition.items
  | expansion {around : Naming} {outer : Role} {inner : Invocation}
      {front items back : List Item} {number : Nat}
      (outside : TextRegion program root definition around outer
        (front ++ .block items :: back))
      (invoked : (outer.function.body.instructions.filterMap program.invocation?)[
        (front.filterMap Item.block?).length]? = some inner)
      (ending : .emptyLabel (C.Label.finish number).text ∈ items) :
      TextRegion program root definition
        ((outer.owner, definition.namesAfter front outer.owner) :: around)
        ⟨.expansion number, inner.function, inner.args.map outer.register,
          inner.results.map outer.register⟩ items

/-- What C expects of a region. -/
structure TextRegion.Closed (program : Program) (definition : Definition)
    (around : Naming) (role : Role) (items : List Item) : Prop where
  /-- Every nested block is a region again. -/
  nested : ∀ front inner back, items = front ++ .block inner :: back →
    ∃ invocation number, (role.function.body.instructions.filterMap program.invocation?)[
      (front.filterMap Item.block?).length]? = some invocation ∧
      .emptyLabel (C.Label.finish number).text ∈ inner
  labels : items.filterMap Item.label? =
    (role.function.body.labels role.owner).map C.Label.text
  /-- A label stands before another label or a statement. -/
  placed : ∀ front label back, items = front ++ .label label :: back →
    ∃ next later, back = next :: later ∧ next.declared? = none
  gotos : items.filterMap Item.goto? =
    (role.function.body.instructions.filterMap (Instruction.goto? role.owner)).map
      C.Label.text
  /-- Gotos to blocks that exist stay in the region. -/
  targets : ∀ instruction ∈ role.function.body.instructions,
    ∀ label ∈ instruction.goto? role.owner,
      (∀ target ∈ instruction.target?, target < role.function.body.blocks.length) →
        label.text ∈ items.filterMap Item.label?
  names : (definition.namesAfter items role.owner).Nodup
  /-- Statements mention the variables of what they were lowered for. -/
  mentions : (items.filterMap Item.statement?).map C.Spelled.Statement.variables =
    (role.mentions program).map (·.map Variable.text)
  /-- These are declared before, and found in the block they belong to. -/
  resolved : ∀ front statement back, items = front ++ .statement statement :: back →
    ∃ mentioned, (role.mentions program)[(front.filterMap Item.statement?).length]? =
        some mentioned ∧
      ∀ found ∈ mentioned,
        Naming.resolve ((role.owner, definition.namesAfter front role.owner) :: around)
          found.text = some found.home

/-- A definition in which every label is defined once and every region is
closed. -/
structure Closed (program : Program) (function : BodiedFunction)
    (definition : Definition) : Prop where
  distinct : (C.Spelled.itemsLabels definition.items).Nodup
  regions : ∀ around role items,
    TextRegion program function definition around role items →
      TextRegion.Closed program definition around role items

end Lowering

end CBackend
