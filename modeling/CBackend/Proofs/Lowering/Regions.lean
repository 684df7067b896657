import CBackend.Proofs.Lowering.Declarations

/-!
# Regions of a definition

The items of a definition and those of each nested block are its regions.
The outermost region belongs to the function itself.  The nested blocks of a
region belong to the inline functions that its body invokes, in order: the
first block to the first such invocation and so on.  So every region has an
owner and a function, whatever its items are.
-/

namespace CBackend

namespace C

/-- The label in front of an item. -/
def Item.label? : Item → Option Label
  | .label found | .emptyLabel found => some found
  | .declare _ | .statement _ | .block _ => none

/-- The label that an item may go to. -/
def Item.goto? : Item → Option Label
  | .statement (.goto target) | .statement (.branch _ _ _ target) => some target
  | _ => none

/-- The function symbol that an item calls. -/
def Item.called? : Item → Option String
  | .statement (.call _ symbol _) => some symbol
  | _ => none

def Item.block? : Item → Option (List Item)
  | .block items => some items
  | .declare _ | .statement _ | .label _ | .emptyLabel _ => none

def Item.statement? : Item → Option Statement
  | .statement found => some found
  | .declare _ | .label _ | .emptyLabel _ | .block _ => none

/-- The name that an item declares. -/
def Item.declared? : Item → Option String
  | .declare declaration => some declaration.declarator.declared
  | .statement _ | .label _ | .emptyLabel _ | .block _ => none

mutual

/-- The labels at and inside an item. -/
def Item.labels : Item → List Label
  | .label found | .emptyLabel found => [found]
  | .declare _ | .statement _ => []
  | .block items => itemsLabels items

def itemsLabels : List Item → List Label
  | [] => []
  | item :: later => item.labels ++ itemsLabels later

end

theorem itemsLabels_append (left right : List Item) :
    itemsLabels (left ++ right) = itemsLabels left ++ itemsLabels right := by
  induction left with
  | nil => rfl
  | cons item left induction =>
      rw [List.cons_append, itemsLabels, itemsLabels, induction, List.append_assoc]

/-- Everything a statement reads or assigns. -/
def Statement.variables : Statement → List Variable
  | .move target source => [target, source]
  | .compute target left _ right => [target, left, right]
  | .branch left _ right _ => [left, right]
  | .goto _ => []
  | .call target _ args => target.toList ++ args
  | .leave value => value.toList

/-- What the statements among items mention, one by one. -/
def itemsMentions (items : List Item) : List (List Variable) :=
  (items.filterMap Item.statement?).map Statement.variables

theorem itemsMentions_append (left right : List Item) :
    itemsMentions (left ++ right) = itemsMentions left ++ itemsMentions right := by
  rw [itemsMentions, List.filterMap_append, List.map_append]
  rfl

/-- Whose block a variable is declared in. -/
def Variable.home : Variable → Owner
  | .register owner _ => owner
  | .result _ | .param _ => .function

/-- The names declared in open blocks, innermost first, each with the owner
of its block. -/
abbrev Naming := List (Owner × List String)

/-- The block in which a name is found. -/
def Naming.resolve (naming : Naming) (name : String) : Option Owner :=
  naming.findSome? fun entry => if name ∈ entry.2 then some entry.1 else none

def Definition.paramNames (definition : Definition) : List String :=
  definition.head.declarator.parameters.map (·.declarator.declared)

/-- The names declared in the block of an owner once the front of its items
has been read. -/
def Definition.namesAfter (definition : Definition) (front : List Item) :
    Owner → List String
  | .function => definition.paramNames ++ front.filterMap Item.declared?
  | .expansion _ => front.filterMap Item.declared?

end C

/-- The inline function that an instruction expands. -/
def Program.inlined? (program : Program) : Instruction → Option BodiedFunction
  | .invoke number _ _ =>
    match program.callees[number]? with
    | some (.inlined function) => some function
    | some (.native _) | some (.compiled _) | none => none
  | .compute .. | .branch .. | .jump _ | .leave => none

/-- An inline function and the registers that its invocation passes. -/
structure Invocation where
  function : BodiedFunction
  args : List RegisterNumber
  results : List RegisterNumber

/-- The invocation that an instruction expands. -/
def Program.invocation? (program : Program) : Instruction → Option Invocation
  | .invoke number args results =>
    match program.callees[number]? with
    | some (.inlined function) => some ⟨function, args, results⟩
    | some (.native _) | some (.compiled _) | none => none
  | .compute .. | .branch .. | .jump _ | .leave => none

theorem Program.inlined?_eq (program : Program) (instruction : Instruction) :
    program.inlined? instruction =
      (program.invocation? instruction).map Invocation.function := by
  cases instruction with
  | invoke number args results =>
      rw [inlined?, invocation?]
      split <;> rfl
  | compute _ _ _ _ => rfl
  | branch _ _ _ _ => rfl
  | jump _ => rfl
  | leave => rfl

/-- The function symbol that an instruction calls. -/
def Program.called? (program : Program) : Instruction → Option String
  | .invoke number _ _ => program.callees[number]?.bind Callee.symbol?
  | .compute .. | .branch .. | .jump _ | .leave => none

def Body.instructions (body : Body) : List Instruction := body.blocks.flatten

/-- The label that an instruction goes to in the region of an owner. -/
def Instruction.goto? (owner : C.Owner) : Instruction → Option C.Label
  | .branch target _ _ _ | .jump target => some (.block owner target)
  | .leave =>
    match owner with
    | .function => none
    | .expansion number => some (.finish number)
  | .compute .. | .invoke .. => none

/-- The block that an instruction may go to. -/
def Instruction.target? : Instruction → Option BlockNumber
  | .branch target _ _ _ | .jump target => some target
  | .compute .. | .invoke .. | .leave => none

/-- The labels that the region of an owner should define. -/
def Body.labels (body : Body) (owner : C.Owner) : List C.Label :=
  (List.range body.blocks.length).map (.block owner) ++
    match owner with
    | .function => []
    | .expansion number => [.finish number]

namespace Lowering

open C (Definition Item Owner Naming)

/-- The regions of a definition, each with the names declared around it. -/
inductive Region (program : Program) (root : BodiedFunction)
    (definition : Definition) :
    Naming → Owner → BodiedFunction → List Item → Prop where
  | whole : Region program root definition [] .function root definition.items
  | expansion {around : Naming} {owner : Owner} {outer inner : BodiedFunction}
      {front items back : List Item} {number : Nat}
      (outside : Region program root definition around owner outer
        (front ++ .block items :: back))
      (invoked : (outer.body.instructions.filterMap program.inlined?)[
        (front.filterMap Item.block?).length]? = some inner)
      (ending : .emptyLabel (.finish number) ∈ items) :
      Region program root definition
        ((owner, definition.namesAfter front owner) :: around)
        (.expansion number) inner items

end Lowering

/-- An inline function that doubles. -/
def doubling : BodiedFunction :=
  ⟨"twice", ⟨[⟨"x", 0⟩], [⟨"y", 0⟩]⟩, ⟨[0, 0], [[.compute .plus 1 0 0]]⟩⟩

/-- An inline function that expands another one twice. -/
def quadrupling : BodiedFunction :=
  ⟨"quadruple", ⟨[⟨"x", 0⟩], [⟨"y", 0⟩]⟩,
    ⟨[0, 0], [[.invoke 1 [0] [1], .invoke 1 [1] [1], .leave]]⟩⟩

/-- A loop around an expansion and a call. -/
def looping : BodiedFunction :=
  ⟨"main", ⟨[⟨"n", 0⟩], [⟨"total", 0⟩]⟩, ⟨[0, 0, 0],
    [[.invoke 2 [0] [2], .invoke 0 [2] [0], .branch 0 .below 2 0],
     [.invoke 1 [0] [1]]]⟩⟩

def loopProgram : Program where
  name := "loop"
  types := ⟨.eight, [.basic ⟨0o13⟩]⟩
  callees := [.native ⟨"log", ⟨[⟨"x", 0⟩], [⟨"y", 0⟩]⟩, "log_value"⟩,
    .inlined doubling, .inlined quadrupling, .compiled looping]

end CBackend
