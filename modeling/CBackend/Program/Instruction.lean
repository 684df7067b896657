/-!
# Instructions

Operands are registers of the function an instruction stands in, and targets
are blocks of that function.  Neither is checked here.

Registers, blocks and callees are numbered without a bound.  Numbers of 32
bits are enough as long as there are fewer than 2^32 of each, which is assumed
throughout.
-/

namespace CBackend

/-- The position of a register in a register file. -/
abbrev RegisterNumber := Nat

/-- The position of a block in a body. -/
abbrev BlockNumber := Nat

/-- The position of a callee in a program. -/
abbrev CalleeNumber := Nat

/-- What a branch tests of its two operands. -/
inductive Comparison where
  | equal
  | notEqual
  | atMost
  | below
deriving DecidableEq, Repr

namespace Comparison

def word : Comparison → String
  | .equal => "eq"
  | .notEqual => "neq"
  | .atMost => "lteq"
  | .below => "lt"

def all : List Comparison := [.equal, .notEqual, .atMost, .below]

def ofWord? (word : String) : Option Comparison := all.find? (·.word == word)

end Comparison

/-- What an arithmetic instruction computes of its two operands. -/
inductive Operator where
  | plus
  | minus
  | times
  | over
deriving DecidableEq, Repr

namespace Operator

def word : Operator → String
  | .plus => "add"
  | .minus => "sub"
  | .times => "mul"
  | .over => "div"

def all : List Operator := [.plus, .minus, .times, .over]

def ofWord? (word : String) : Option Operator := all.find? (·.word == word)

end Operator

inductive Instruction where
  | compute (operator : Operator) (target left right : RegisterNumber)
  /-- Goes to the target if the test holds of the two registers. -/
  | branch (target : BlockNumber) (test : Comparison) (left right : RegisterNumber)
  | jump (target : BlockNumber)
  /-- Arguments and results belong to the parameters and results of the
  callee by position. -/
  | invoke (callee : CalleeNumber) (args results : List RegisterNumber)
  /-- Leaves the function with the values of its result registers. -/
  | leave
deriving DecidableEq, Repr

namespace Instruction

/-- Whether control never goes on to the next instruction. -/
def divertsControl : Instruction → Bool
  | .jump _ | .leave => true
  | .compute .. | .branch .. | .invoke .. => false

def registerList (registers : List RegisterNumber) : String :=
  ", ".intercalate (registers.map fun register => s!"%{register}")

def text : Instruction → String
  | .compute operator target left right =>
    let word := operator.word
    s!"%{target} = {word} %{left}, %{right}"
  | .branch target test left right =>
    let word := test.word
    s!"br.{word} %{left}, %{right}, bb{target}"
  | .jump target => s!"jmp bb{target}"
  | .invoke callee args results =>
    let assigned := if results.isEmpty then "" else registerList results ++ " = "
    let given := registerList args
    s!"{assigned}invoke @{callee}({given})"
  | .leave => "ret"

end Instruction

abbrev Block := List Instruction

/-- Whether control never falls through to the next block. -/
def Block.divertsControl (block : Block) : Bool :=
  block.getLast?.any Instruction.divertsControl

end CBackend
