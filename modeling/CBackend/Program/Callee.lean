import CBackend.Program.Instruction
import CBackend.Shape

/-!
# Callees

Whatever can be invoked: a native function that is linked from outside, an
inline function that is expanded at every call, or a compiled function.
-/

namespace CBackend

/-- The register file and the blocks of a function.  The first registers hold
the parameters, the next ones the results, and the others are free. -/
structure Body where
  registers : List TypeNumber
  blocks : List Block
deriving DecidableEq, Repr

/-- A function implemented elsewhere and called by its link symbol. -/
structure NativeFunction where
  name : String
  type : FunctionType
  symbol : String
deriving DecidableEq, Repr

structure BodiedFunction where
  name : String
  type : FunctionType
  body : Body
deriving DecidableEq, Repr

inductive Callee where
  | native (function : NativeFunction)
  | inlined (function : BodiedFunction)
  | compiled (function : BodiedFunction)
deriving DecidableEq, Repr

namespace Callee

def name : Callee → String
  | .native function => function.name
  | .inlined function | .compiled function => function.name

def type : Callee → FunctionType
  | .native function => function.type
  | .inlined function | .compiled function => function.type

def body? : Callee → Option Body
  | .native _ => none
  | .inlined function | .compiled function => some function.body

def compiled? : Callee → Option BodiedFunction
  | .compiled function => some function
  | .native _ | .inlined _ => none

/-- The types of the signature, then of the registers. -/
def mentions (callee : Callee) : List TypeNumber :=
  callee.type.mentions ++ (callee.body?.map Body.registers).getD []

/-- The name a callee has in the whole generated file, if it has one. -/
def symbol? : Callee → Option String
  | .native function => some function.symbol
  | .compiled function => some function.name
  | .inlined _ => none

end Callee

end CBackend
