import CBackend.C.File
import CBackend.Lowering.Declare
import CBackend.Lowering.Parameters

/-!
# Lowering of functions

Every register becomes a variable and every block a label; branches and
jumps become gotos.  A call to a compiled or native function stores its
result in a temporary of the callee first.  An inline function is expanded
in a nested block with registers and labels of its own.

An inline function may not be expanded inside its own expansion.  Those that
are not being expanded are passed down, so that each level of nesting has
one fewer left and lowering comes to an end.

Expansions are counted without a bound.  A counter of 32 bits gives them the
same numbers as long as a definition has fewer than 2^32 expansions, which is
assumed throughout.
-/

namespace CBackend

/-- Expanding a function that was left leaves fewer. -/
theorem length_erase_lt [DecidableEq α] {item : α} {items : List α} (member : item ∈ items) :
    (items.erase item).length < items.length := by
  have shorter := List.length_erase_of_mem member
  have inhabited := List.length_pos_of_mem member
  omega

namespace Lowering

/-- One use of a body: as a definition, or as an inline expansion in it. -/
structure Activation where
  function : String
  type : FunctionType
  body : Body
  owner : C.Owner

namespace Activation

/-- The variable of a register, which must be declared. -/
def register (activation : Activation) (number : RegisterNumber) :
    Except LoweringError C.Variable :=
  if number < activation.body.registers.length then .ok (.register activation.owner number)
  else .error (.missingRegister activation.function number)

def registers (activation : Activation) (numbers : List RegisterNumber) :
    Except LoweringError (List C.Variable) :=
  numbers.mapM activation.register

def label (activation : Activation) (number : BlockNumber) : C.Label :=
  .block activation.owner number

/-- The result registers stand after the parameters. -/
def firstResult (activation : Activation) : RegisterNumber := activation.type.params.length

/-- The register file must hold all parameters and results, and no register
may be an array, which C cannot assign. -/
def validate (types : TypeStore) (activation : Activation) : Except LoweringError Unit := do
  let registers := activation.body.registers
  if registers.length < activation.type.params.length + activation.type.results.length then
    throw (.missingRegister activation.function registers.length)
  registers.zipIdx.forM fun (type, number) => do
    if ← types.isArray type then
      throw (.limitation (.arrayRegister number activation.function))

def declarations (types : TypeStore) (activation : Activation) :
    Except LoweringError (List C.Item) :=
  activation.body.registers.zipIdx.mapM fun (type, number) => do
    let name := (C.Variable.register activation.owner number).text
    return .declare (← types.declare type (.name name))

/-- Returns from the definition with its result, if it has one. -/
def finish (activation : Activation) : Except LoweringError C.Item :=
  match activation.type.results with
  | [] => return .statement (.leave none)
  | [_] => return .statement (.leave (some (← activation.register activation.firstResult)))
  | several => throw (.limitation (.returnedResults several.length activation.function))

/-- Leaves the body: an expansion goes on at its end. -/
def leave (activation : Activation) : Except LoweringError C.Item :=
  match activation.owner with
  | .function => activation.finish
  | .expansion number => return .statement (.goto (.finish number))

end Activation

/-- What lowering has met so far. -/
structure Usage where
  /-- The natives called, one for each link symbol, in order of their first
  call. -/
  natives : List NativeFunction
  /-- The callees whose results were stored, each with the type of the
  result. -/
  results : List (String × TypeNumber)
  /-- The number of expansions in the current definition. -/
  expansions : Nat

/-- Lowering reads and extends what is in use, and may fail. -/
abbrev Lower := StateT Usage (Except LoweringError)

/-- Records the use of a native.  Natives with one link symbol must have one
prototype. -/
def link (types : TypeStore) (native : NativeFunction) : Lower Unit := do
  let usage ← get
  match usage.natives.find? (·.symbol == native.symbol) with
  | none => set { usage with natives := usage.natives ++ [native] }
  | some seen =>
    let first ← types.declareFunction seen.type (.name seen.symbol)
    let second ← types.declareFunction native.type (.name native.symbol)
    if first.text ≠ second.text then
      throw (.symbolClash native.symbol seen.name native.name)

/-- Records that the result of a callee is stored; the type of the first
such result counts. -/
def keepResult (callee : String) (type : TypeNumber) : Lower Unit :=
  modify fun usage =>
    if usage.results.any (·.1 == callee) then usage
    else { usage with results := usage.results ++ [(callee, type)] }

/-- A call, and the copy of its result. -/
def call (symbol name : String) (type : FunctionType) (args targets : List C.Variable) :
    Lower (List C.Item) :=
  match type.results with
  | [] => return [.statement (.call none symbol args)]
  | [result] => do
    keepResult name result.type
    return .statement (.call (some (.result name)) symbol args) ::
      targets.map fun target => .statement (.move target (.result name))
  | several => throw (.limitation (.calledResults name several.length))

/-- Lowers the invocation of an inline function, given the variables of its
arguments and results. -/
abbrev Expander := CalleeNumber → BodiedFunction → List C.Variable → List C.Variable →
  Lower (List C.Item)

/-- Lowers an invocation: the callee must exist and be given as many
arguments and results as it has. -/
def invoke (program : Program) (expand : Expander) (activation : Activation)
    (number : CalleeNumber) (args results : List RegisterNumber) : Lower (List C.Item) := do
  let some callee := program.callees[number]? | throw (.missingCallee number)
  let expected : Arity := ⟨callee.type.params.length, callee.type.results.length⟩
  let given : Arity := ⟨args.length, results.length⟩
  if expected ≠ given then
    throw (.wrongArity callee.name expected given)
  let sources ← activation.registers args
  let targets ← activation.registers results
  match callee with
  | .native native =>
    link program.types native
    call native.symbol native.name native.type sources targets
  | .compiled function => call function.name function.name function.type sources targets
  | .inlined function => expand number function sources targets

def instruction (program : Program) (expand : Expander) (activation : Activation) :
    Instruction → Lower (List C.Item)
  | .compute operator target left right => do
    let result ← activation.register target
    let first ← activation.register left
    let second ← activation.register right
    return [.statement (.compute result first operator second)]
  | .branch target test left right => do
    let first ← activation.register left
    let second ← activation.register right
    return [.statement (.branch first test second (activation.label target))]
  | .jump target => return [.statement (.goto (activation.label target))]
  | .invoke callee args results => invoke program expand activation callee args results
  | .leave => return [← activation.leave]

def block (program : Program) (expand : Expander) (activation : Activation) (block : Block)
    (number : BlockNumber) : Lower (List C.Item) := do
  let lowered ← block.mapM (instruction program expand activation)
  return .label (activation.label number) :: lowered.flatten

def blocks (program : Program) (expand : Expander) (activation : Activation) :
    Lower (List C.Item) := do
  let lowered ← activation.body.blocks.zipIdx.mapM fun (code, number) =>
    block program expand activation code number
  return lowered.flatten

/-- Gives out the number of the next expansion. -/
def nextExpansion : Lower Nat :=
  modifyGet fun usage => (usage.expansions, { usage with expansions := usage.expansions + 1 })

/-- Copies of variables into the first registers of an activation. -/
def copiesIn (activation : Activation) (sources : List C.Variable) :
    Except LoweringError (List C.Item) :=
  sources.zipIdx.mapM fun (source, number) => do
    return .statement (.move (← activation.register number) source)

/-- Copies of the result registers of an activation into variables. -/
def copiesOut (activation : Activation) (targets : List C.Variable) :
    Except LoweringError (List C.Item) :=
  targets.zipIdx.mapM fun (target, index) => do
    return .statement (.move target (← activation.register (activation.firstResult + index)))

/-- Expands an inline function in a block of its own: registers, copies of
the arguments, the code, the end label and copies of the results.
`dormant` are the callees not being expanded, and `chain` the names of those
that are. -/
def expand (program : Program) (dormant : List CalleeNumber) (chain : List String) : Expander :=
  fun number function args results =>
    if _ : number ∈ dormant then do
      let expansion ← nextExpansion
      let activation : Activation :=
        ⟨function.name, function.type, function.body, .expansion expansion⟩
      activation.validate program.types
      let registers ← activation.declarations program.types
      let inputs ← copiesIn activation args
      let code ← blocks program
        (expand program (dormant.erase number) (chain ++ [function.name])) activation
      let outputs ← copiesOut activation results
      return [.block
        (registers ++ inputs ++ code ++ [.emptyLabel (.finish expansion)] ++ outputs)]
    else throw (.endlessExpansion (chain ++ [function.name]))
termination_by dormant.length
decreasing_by exact length_erase_lt ‹_ ∈ dormant›

/-- The code of a definition.  Control that falls off its end returns. -/
def code (program : Program) (activation : Activation) : Lower (List C.Item) := do
  let expander := expand program (List.range program.callees.length) []
  let lowered ← blocks program expander activation
  if activation.body.blocks.getLast?.any Block.divertsControl then return lowered
  else return lowered ++ [← activation.finish]

/-- Declarations of the temporaries that hold results. -/
def temporaries (types : TypeStore) (results : List (String × TypeNumber)) :
    Except LoweringError (List C.Item) :=
  results.mapM fun (callee, type) => do
    return .declare (← types.declare type (.name (C.Variable.result callee).text))

/-- Lowers a compiled function.  The natives called so far are shared by all
definitions; temporaries and the numbers of expansions are its own. -/
def definition (program : Program) (function : BodiedFunction) (natives : List NativeFunction) :
    Except LoweringError (C.Definition × List NativeFunction) := do
  if function.type.results.length > 1 then
    throw (.limitation (.definedResults function.name function.type.results.length))
  let activation : Activation := ⟨function.name, function.type, function.body, .function⟩
  activation.validate program.types
  let (lowered, usage) ← (code program activation).run ⟨natives, [], 0⟩
  let named := program.definitionType function.type
  let head ← program.types.declareFunction named (.name function.name)
  let registers ← activation.declarations program.types
  let results ← temporaries program.types usage.results
  let inputs ← copiesIn activation (named.params.map fun param => .param param.name)
  return (⟨head, registers ++ results ++ inputs ++ lowered⟩, usage.natives)

def definitions (program : Program) (natives : List NativeFunction) :
    List BodiedFunction → Except LoweringError (List C.Definition × List NativeFunction)
  | [] => return ([], natives)
  | function :: later => do
    let (first, used) ← definition program function natives
    let (others, all) ← definitions program used later
    return (first :: others, all)

end Lowering

/-- All definitions of a program, after prototypes of the natives they
call. -/
def Program.source (program : Program) : Except LoweringError C.Source := do
  let (definitions, natives) ← Lowering.definitions program [] program.compiled
  let linked ← natives.mapM fun native =>
    program.types.declareFunction native.type (.name native.symbol)
  return ⟨linked, definitions⟩

end CBackend
