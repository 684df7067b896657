import CBackend.C.Declaration
import CBackend.Lowering.Error
import CBackend.TypeStore.Layout

/-!
# Declaring types in C

A declarator grows from the inside: each layer of a type wraps it once more
until a basic type, a struct or a trait is reached, which gives the
specifier.  Functions are held as pointers to functions, aliases leave no
trace, and several results are the members of an anonymous struct.
-/

namespace CBackend.TypeStore

/-- Declares something of a type. -/
abbrev Declarer := TypeNumber → C.Declarator → Except LoweringError C.Declaration

def declareFieldsBy (declare : Declarer) (fields : List Field) :
    Except LoweringError (List C.Declaration) :=
  fields.mapM fun field => declare field.type (.name field.name)

/-- A function of a given type, given how types are declared.  The
parameters wrap what is declared, and the result wraps that. -/
def declareFunctionBy (store : TypeStore) (declare : Declarer) (type : FunctionType)
    (declared : C.Declarator) : Except LoweringError C.Declaration := do
  let function := C.Declarator.function declared (← declareFieldsBy declare type.params)
  match type.results with
  | [] => return ⟨.void, function⟩
  | [single] =>
    if ← store.isArray single.type then
      throw (.limitation (.arrayResult single.name declared.text))
    declare single.type function
  | several => return ⟨.anonymous (← declareFieldsBy declare several), function⟩

/-- Declares something of a type. -/
def declare (store : TypeStore) (number : TypeNumber) (declared : C.Declarator) :
    Except LoweringError C.Declaration := do
  let wrap : Declarer := fun below declared =>
    if _ : below < number then store.declare below declared
    else .error (.store (.missing below))
  match ← store.shapeAt number with
  | .basic code =>
    match code.cName? with
    | some name => return ⟨.named name, declared⟩
    | none => throw (.unnamed code)
  | .struct name .. | .trait name _ => return ⟨.tagged name, declared⟩
  | .function type => store.declareFunctionBy wrap type (.group (.pointer declared))
  | .array element capacity => wrap element (.array declared capacity)
  | .pointer _ pointee =>
    if ← store.isArray pointee then wrap pointee (.group (.pointer declared))
    else wrap pointee (.pointer declared)
  | .aliasOf _ target => wrap target declared
termination_by number

def spell (store : TypeStore) (number : TypeNumber) : Except LoweringError C.Declaration :=
  store.declare number (.name "")

def declareFields (store : TypeStore) (fields : List Field) :
    Except LoweringError (List C.Declaration) :=
  declareFieldsBy store.declare fields

def declareFunction (store : TypeStore) (type : FunctionType) (declared : C.Declarator) :
    Except LoweringError C.Declaration :=
  store.declareFunctionBy store.declare type declared

def declareFunctionPointer (store : TypeStore) (type : FunctionType) (name : String) :
    Except LoweringError C.Declaration :=
  store.declareFunction type (.group (.pointer (.name name)))

/-- The result of a function as a type: nothing, the single result, or a
struct of all of them. -/
def spellResults (store : TypeStore) (results : List Field) :
    Except LoweringError C.Declaration := do
  match results with
  | [] => return ⟨.void, .name ""⟩
  | [single] => store.spell single.type
  | several => return ⟨.anonymous (← store.declareFields several), .name ""⟩

def defineStruct (store : TypeStore) (name : String) (fields : List Field) :
    Except LoweringError C.StructDefinition :=
  return ⟨name, ← store.declareFields fields⟩

/-- A trait is a struct of pointers to functions. -/
def defineTrait (store : TypeStore) (name : String) (prototypes : List Prototype) :
    Except LoweringError C.StructDefinition :=
  return ⟨name, ← prototypes.mapM fun prototype =>
    store.declareFunctionPointer prototype.type prototype.name⟩

end CBackend.TypeStore
