import CBackend.Program.Basic

/-!
# Listings

A program written out for reading: every type with its identifier, form and
signature, and every callee with its registers and blocks.
-/

namespace CBackend.Program

def typeLine (types : TypeStore) (shape : Shape) (number : TypeNumber) :
    Except StoreError String := do
  let name ← types.identifier number
  let signature ← types.signature number
  let word := shape.word
  let layout := signature.text
  return s!"type #{number} {name} = {word} {layout}\n"

def registerLine (types : TypeStore) (type : TypeNumber) (register : RegisterNumber) :
    Except StoreError String := do
  let name ← types.identifier type
  return s!"  %{register}: {name}\n"

def blockLines (block : Block) (number : BlockNumber) : String :=
  s!"bb{number}:\n" ++ String.join (block.map fun instruction => "  " ++ instruction.text ++ "\n")

def bodyLines (types : TypeStore) (body : Body) : Except StoreError String := do
  let registers ← body.registers.zipIdx.mapM fun (type, register) =>
    registerLine types type register
  let blocks := body.blocks.zipIdx.map fun (block, number) => blockLines block number
  return String.join registers ++ String.join blocks

/-- What stands before the number of a callee. -/
def calleeLead : Callee → String
  | .native function => "native \"" ++ function.symbol ++ "\""
  | .inlined _ => "inline"
  | .compiled _ => "impl"

def calleeLines (types : TypeStore) (callee : Callee) (number : CalleeNumber) :
    Except StoreError String := do
  let lead := calleeLead callee
  let name := callee.name
  let head := s!"{lead} @{number} {name}\n"
  match callee.body? with
  | none => return head
  | some body => return head ++ (← bodyLines types body)

def listing (program : Program) : Except StoreError String := do
  let types ← program.types.shapes.zipIdx.mapM fun (shape, number) =>
    typeLine program.types shape number
  let callees ← program.callees.zipIdx.mapM fun (callee, number) =>
    calleeLines program.types callee number
  return "module " ++ program.name ++ "\n" ++ String.join types ++ String.join callees

end CBackend.Program
