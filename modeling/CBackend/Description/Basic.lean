import CBackend.Program.Instruction
import CBackend.Shape

/-!
# Descriptions of programs

A description names types and callees where a program has numbers.  Types
without a name are written where they are used.
-/

namespace CBackend.Description

mutual

/-- A type as it is written: a name, or the structure of the type. -/
inductive TypeTerm where
  | named (name : String)
  | pointer (mode : PointerMode) (pointee : TypeTerm)
  | array (element : TypeTerm) (capacity : Nat)
  | function (signature : SignatureTerm)

structure FieldTerm where
  name : String
  type : TypeTerm

structure SignatureTerm where
  params : List FieldTerm
  results : List FieldTerm

end

structure PrototypeTerm where
  name : String
  signature : SignatureTerm

inductive TypeEntry where
  | struct (name : String) (fields : List FieldTerm)
  | trait (name : String) (prototypes : List PrototypeTerm)
  | aliasOf (name : String) (target : TypeTerm)

/-- An instruction that invokes its callee by name. -/
inductive InstructionTerm where
  | compute (operator : Operator) (target left right : RegisterNumber)
  | branch (target : BlockNumber) (test : Comparison) (left right : RegisterNumber)
  | jump (target : BlockNumber)
  | invoke (callee : String) (args results : List RegisterNumber)
  | leave
deriving DecidableEq, Repr

structure BodyTerm where
  registers : List TypeTerm
  blocks : List (List InstructionTerm)

inductive CalleeEntry where
  | native (name symbol : String) (signature : SignatureTerm)
  | inlined (name : String) (signature : SignatureTerm) (body : BodyTerm)
  | compiled (name : String) (signature : SignatureTerm) (body : BodyTerm)

def CalleeEntry.name : CalleeEntry → String
  | .native name .. | .inlined name .. | .compiled name .. => name

end CBackend.Description

namespace CBackend

structure Description where
  name : String
  pointerSize : PointerSize
  types : List Description.TypeEntry
  callees : List Description.CalleeEntry

end CBackend
