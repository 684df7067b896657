import CBackend.Program.Basic
import CBackend.Proofs.Execution.Machine

/-!
# Running bodies

A body is run on a register file of its own.  Control falls through from one
block to the next and leaves the body at its end.  Inline functions are run
by pushing a frame; all other callees are outside.

A frame knows the registers of its caller that receive its results.  They
are written one after the other when it is left.
-/

namespace CBackend

namespace Execution

/-- A body being run. -/
structure Frame (Value : Type) where
  function : BodiedFunction
  /-- What is left of the current block. -/
  code : Block
  /-- The blocks after the current one. -/
  later : List Block
  registers : List Value
  /-- The registers of the caller that receive the results. -/
  results : List RegisterNumber

namespace Frame

def read (frame : Frame Value) (number : RegisterNumber) : Option Value :=
  frame.registers[number]?

def readAll (frame : Frame Value) (numbers : List RegisterNumber) :
    Option (List Value) :=
  numbers.mapM frame.read

def write (frame : Frame Value) (number : RegisterNumber) (value : Value) :
    Option (Frame Value) :=
  if number < frame.registers.length then
    some { frame with registers := frame.registers.set number value }
  else none

def writeAll (frame : Frame Value) :
    List RegisterNumber → List Value → Option (Frame Value)
  | [], [] => some frame
  | number :: numbers, value :: values => do
    (← frame.write number value).writeAll numbers values
  | _, _ => none

/-- Goes on at the start of a block. -/
def jump (frame : Frame Value) (target : BlockNumber) : Option (Frame Value) :=
  match frame.function.body.blocks.drop target with
  | [] => none
  | later => some { frame with code := [], later }

/-- The values of the result registers, which stand after the parameters. -/
def values (frame : Frame Value) : Option (List Value) :=
  frame.readAll (List.range' frame.function.type.params.length
    frame.function.type.results.length)

/-- A new frame.  Arguments are in the first registers, and the others have
their initial values. -/
def enter (setting : Setting Value World) (function : BodiedFunction)
    (args : List Value) (results : List RegisterNumber) (number : Nat) :
    Frame Value :=
  { function
    code := []
    later := function.body.blocks
    registers := (List.range function.body.registers.length).map fun register =>
      args[register]?.getD (setting.initial number register)
    results }

end Frame

/-- The frame at work, and those that wait for it, innermost first. -/
structure Frames (Value : Type) where
  current : Frame Value
  callers : List (Frame Value)

namespace Frames

variable (program : Program) (setting : Setting Value World)

/-- Leaves the current frame. -/
def leave (frames : Frames Value) (effects : Effects Value World) :
    Option (State (Frames Value) Value World) := do
  let values ← frames.current.values
  match frames.callers with
  | [] => return .returned values effects
  | caller :: callers =>
    return .running ⟨← caller.writeAll frames.current.results values, callers⟩ effects

/-- Calls a function from outside, which has at most one result. -/
def call (frames : Frames Value) (effects : Effects Value World)
    (symbol : String) (type : FunctionType) (args : List Value)
    (results : List RegisterNumber) :
    Option (State (Frames Value) Value World) := do
  let (value, effects) := effects.calling setting symbol args
  let answers ← match type.results with
    | [] => some []
    | [_] => some [value]
    | _ => none
  return .running ⟨← frames.current.writeAll results answers, frames.callers⟩ effects

def invoke (frames : Frames Value) (effects : Effects Value World)
    (number : CalleeNumber) (args results : List RegisterNumber) :
    Option (State (Frames Value) Value World) := do
  let callee ← program.callees[number]?
  if args.length = callee.type.params.length ∧
      results.length = callee.type.results.length then
    let values ← frames.current.readAll args
    match callee with
    | .native function =>
      frames.call setting effects function.symbol function.type values results
    | .compiled function =>
      frames.call setting effects function.name function.type values results
    | .inlined function =>
      return .running
        ⟨.enter setting function values results effects.created,
          frames.current :: frames.callers⟩ effects.creating
  else none

def run (frames : Frames Value) (effects : Effects Value World) :
    Instruction → Option (State (Frames Value) Value World)
  | .compute operator target left right => do
    let first ← frames.current.read left
    let second ← frames.current.read right
    let written ← frames.current.write target (setting.compute operator first second)
    return .running ⟨written, frames.callers⟩ effects
  | .branch target test left right => do
    let first ← frames.current.read left
    let second ← frames.current.read right
    if setting.holds test first second then
      return .running ⟨← frames.current.jump target, frames.callers⟩ effects
    else return .running frames effects
  | .jump target => do
    return .running ⟨← frames.current.jump target, frames.callers⟩ effects
  | .invoke callee args results => frames.invoke program setting effects callee args results
  | .leave => frames.leave effects

/-- One step: an instruction, or the way on from the end of a block. -/
def step : Step (Frames Value) Value World := fun ⟨frame, callers⟩ effects =>
  let next :=
    match frame.code, frame.later with
    | instruction :: code, _ =>
      run program setting ⟨{ frame with code }, callers⟩ effects instruction
    | [], block :: later =>
      some (.running ⟨{ frame with code := block, later }, callers⟩ effects)
    | [], [] => leave ⟨frame, callers⟩ effects
  next.getD (.stuck effects)

end Frames

/-- A function at its start, on the first register file. -/
def startBody (setting : Setting Value World) (function : BodiedFunction)
    (args : List Value) (world : World) : State (Frames Value) Value World :=
  .running ⟨.enter setting function args [] 0, []⟩ (.start world)

/-- The run of a function's body. -/
def bodyRun (program : Program) (setting : Setting Value World)
    (function : BodiedFunction) (args : List Value) (world : World) :
    Run (Frames Value) Value World :=
  (Frames.step program setting).runFrom (startBody setting function args world)

end Execution

end CBackend
