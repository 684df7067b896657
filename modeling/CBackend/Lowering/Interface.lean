import CBackend.C.File
import CBackend.Lowering.Declare
import CBackend.Lowering.Parameters

/-!
# The header of a program

Tags of all structs and traits, then their definitions, then one prototype
for each compiled function, each group in the order of the program.  A
struct that holds another by value, also as the element of an array, can
only be defined after it.
-/

namespace CBackend

/-- The tag under which a struct or trait is defined in C. -/
def Shape.tag? : Shape → Option String
  | .struct name .. | .trait name _ => some name
  | _ => none

namespace TypeStore

/-- The type that a value of a type consists of: what stands behind all
aliases and array layers. -/
def content (store : TypeStore) (number : TypeNumber) : Except StoreError TypeNumber := do
  match ← store.shapeAt number with
  | .aliasOf _ inner | .array inner _ =>
    descend number (fun below _ => store.content below) inner
  | _ => return number
termination_by number

/-- Fails if a field of a struct holds a struct or trait by value that is
not complete yet. -/
def requireComplete (store : TypeStore) (complete : List TypeNumber) (struct : String)
    (field : Field) : Except LoweringError Unit := do
  let inner ← store.content field.type
  if let some tag := (← store.shapeAt inner).tag? then
    if inner ∉ complete then
      throw (.incomplete struct tag)

/-- The definitions of structs and traits from the type `next` on, when
those in `complete` stand before. -/
def defineAll (store : TypeStore) (next : TypeNumber) (complete : List TypeNumber) :
    List Shape → Except LoweringError (List C.StructDefinition)
  | [] => return []
  | .struct name fields _ :: later => do
    fields.forM (store.requireComplete complete name)
    let definition ← store.defineStruct name fields
    return definition :: (← store.defineAll (next + 1) (next :: complete) later)
  | .trait name prototypes :: later => do
    let definition ← store.defineTrait name prototypes
    return definition :: (← store.defineAll (next + 1) (next :: complete) later)
  | _ :: later => store.defineAll (next + 1) complete later

end TypeStore

namespace Program

/-- The head of a compiled function, with the parameter names of its
definition. -/
def declareCompiled (program : Program) (function : BodiedFunction) :
    Except LoweringError C.Declaration :=
  program.types.declareFunction (program.definitionType function.type) (.name function.name)

def header (program : Program) : Except LoweringError C.Header := do
  let tags := program.types.shapes.filterMap Shape.tag?
  let structs ← program.types.defineAll 0 [] program.types.shapes
  let prototypes ← program.compiled.mapM program.declareCompiled
  return ⟨tags, structs, prototypes⟩

end Program

end CBackend
