import CBackend.Numeral
import CBackend.TypeStore.Basic

/-!
# Identifiers, layouts and aliases

What a type is called, how it is laid out and what an alias stands for all
follow mentions downwards: outside of structs a type mentions only types
that came before it.  Structs end the descent, because they have a name and
a stored signature.
-/

namespace CBackend.TypeStore

/-- Follows a mention in the type numbered `holder`.  A mention that does not
point below its holder denotes nothing. -/
def descend (holder : TypeNumber)
    (visit : (number : TypeNumber) → number < holder → Except StoreError α)
    (number : TypeNumber) : Except StoreError α :=
  if below : number < holder then visit number below else .error (.missing number)

/-- The type that an alias stands for, through any chain of aliases; other
types stand for themselves. -/
def unalias (store : TypeStore) (number : TypeNumber) : Except StoreError TypeNumber := do
  match ← store.shapeAt number with
  | .aliasOf _ target => descend number (fun below _ => store.unalias below) target
  | _ => return number
termination_by number

def isArray (store : TypeStore) (number : TypeNumber) : Except StoreError Bool := do
  let shape ← store.shapeAt (← store.unalias number)
  return shape.isArray

/-- The identifier of a type: its name, or a description of its structure. -/
def identifier (store : TypeStore) (number : TypeNumber) : Except StoreError String := do
  let visit := descend number fun below _ => store.identifier below
  match ← store.shapeAt number with
  | .basic code => return code.mnemonic
  | .pointer _ pointee => return "ptrOf_" ++ (← visit pointee)
  | .array element capacity =>
    return "arrOf_" ++ (← visit element) ++ "_" ++ Numeral.hex capacity
  | .function type =>
    let params ← type.params.mapM fun param => visit param.type
    let results ← type.results.mapM fun result => visit result.type
    return "funcOf_" ++ "_".intercalate params ++ "__" ++ "_".intercalate results
  | .struct name .. | .trait name _ | .aliasOf name _ => return name
termination_by number

/-- The flattened layout of a type.  Arrays and functions are held by
address. -/
def signature (store : TypeStore) (number : TypeNumber) : Except StoreError Signature := do
  let visit := descend number fun below _ => store.signature below
  match ← store.shapeAt number with
  | .basic code => return [code]
  | .pointer _ pointee => return .pointer store.pointerSize (← visit pointee)
  | .array element _ => return .pointer store.pointerSize (← visit element)
  | .struct _ _ signature => return signature
  | .function _ => return .pointer store.pointerSize []
  | .trait _ prototypes =>
    return prototypes.flatMap fun _ => Signature.pointer store.pointerSize []
  | .aliasOf _ target => visit target
termination_by number

end CBackend.TypeStore
