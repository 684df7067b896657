import CBackend.Report
import CBackend.Shape

/-!
# Causes of failure in a store of types
-/

namespace CBackend

inductive StoreError where
  | missing (number : TypeNumber)
  | nameTaken (name : String)
  | notStruct (number : TypeNumber) (word : String)
  | fieldTaken (struct field : String)
  /-- `walk` names the types met on the way from the type of the field to
  the struct. -/
  | selfEmbedding (struct field : String) (walk : List String)
deriving DecidableEq, Repr

namespace StoreError

def message : StoreError → String
  | .missing number => s!"unknown type id #{number}"
  | .nameTaken name => s!"type name '{name}' is already defined"
  | .notStruct number word => s!"type #{number} is a {word}, expected a struct"
  | .fieldTaken struct field => s!"struct '{struct}' already has a field named '{field}'"
  | .selfEmbedding struct field walk =>
    let via := " -> ".intercalate walk
    s!"field '{field}' would embed struct '{struct}' in itself (via {via})"

def report (cause : StoreError) : Report := .type cause.message

end StoreError

end CBackend
