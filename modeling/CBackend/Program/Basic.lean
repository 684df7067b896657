import CBackend.Program.Callee
import CBackend.TypeStore.Insertion

/-!
# Programs

A program is a store of types and a list of callees, both in the order in
which they came.
-/

namespace CBackend

inductive ProgramError where
  | calleeTaken (name : String)
  /-- A type of the signature or of a register does not exist. -/
  | missingType (callee : String) (cause : StoreError)
deriving DecidableEq, Repr

namespace ProgramError

def message : ProgramError → String
  | .calleeTaken name => s!"callee '{name}' is already defined"
  | .missingType callee cause =>
    let reason := cause.message
    s!"callee '{callee}': {reason}"

def report (cause : ProgramError) : Report := .type cause.message

end ProgramError

structure Program where
  name : String
  types : TypeStore
  callees : List Callee
deriving DecidableEq, Repr

namespace Program

def empty (name : String) (pointerSize : PointerSize) : Program :=
  ⟨name, .empty pointerSize, []⟩

def findCallee? (program : Program) (name : String) : Option CalleeNumber :=
  program.callees.findIdx? (·.name == name)

/-- The first of some types that does not exist. -/
def firstMissing (types : TypeStore) (numbers : List TypeNumber) : Option StoreError :=
  numbers.findSome? fun number =>
    match types.shapeAt number with
    | .ok _ => none
    | .error cause => some cause

/-- Inserts a callee whose name is free and whose types exist. -/
def insertCallee (program : Program) (callee : Callee) :
    Except ProgramError (CalleeNumber × Program) :=
  if (program.findCallee? callee.name).isSome then
    .error (.calleeTaken callee.name)
  else
    match firstMissing program.types callee.mentions with
    | some cause => .error (.missingType callee.name cause)
    | none => .ok (program.callees.length, { program with callees := program.callees ++ [callee] })

def compiled (program : Program) : List BodiedFunction :=
  program.callees.filterMap Callee.compiled?

end Program

end CBackend
