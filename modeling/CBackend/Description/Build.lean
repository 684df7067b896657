import CBackend.Description.Decode
import CBackend.Files.SystemError
import CBackend.Program.Basic

/-!
# Building programs from descriptions

All structs are announced before any of them is given a field, so that
structs may point to one another in any order.  Traits and aliases can only
be named after their entry.  Callees may invoke one another in any order.
-/

namespace CBackend

inductive DescriptionError where
  /-- The file of the description cannot be read. -/
  | unreadable (path : String) (cause : SystemError)
  /-- The text is not a description. -/
  | malformed
  | noSuchType (name : String)
  | noSuchCallee (name : String)
  | repeatedCallee (name : String)
  | store (cause : StoreError)
  | program (cause : ProgramError)
deriving DecidableEq, Repr

namespace DescriptionError

def message : DescriptionError → String
  | .unreadable path cause => "failed to read " ++ path ++ ": " ++ cause.message
  | .malformed => "invalid module description"
  | .noSuchType name => s!"unknown type '{name}'"
  | .noSuchCallee name => s!"unknown callee '{name}'"
  | .repeatedCallee name => s!"duplicate callee '{name}'"
  | .store cause => cause.message
  | .program cause => cause.message

def report : DescriptionError → Report
  | .unreadable path cause => .io (path ++ ": " ++ cause.message)
  | cause => .load cause.message

end DescriptionError

instance : MonadLift (Except StoreError) (Except DescriptionError) where
  monadLift
    | .ok value => .ok value
    | .error cause => .error (.store cause)

instance : MonadLift (Except ProgramError) (Except DescriptionError) where
  monadLift
    | .ok value => .ok value
    | .error cause => .error (.program cause)

namespace Description

/-- Resolving names inserts types into a store, and may fail. -/
abbrev Resolve := StateT TypeStore (Except DescriptionError)

def insertType (shape : Shape) : Resolve TypeNumber := do
  let (number, store) ← (← get).insert shape
  set store
  return number

def extendStruct (struct : TypeNumber) (field : Field) : Resolve Unit := do
  set (← (← get).extend struct field)

def findType (name : String) : Resolve TypeNumber := do
  let some number := (← get).find? name | throw (.noSuchType name)
  return number

/-- A mnemonic denotes its basic type, whatever the store holds. -/
def resolveName (name : String) : Resolve TypeNumber :=
  match BasicCode.ofMnemonic? name with
  | some code => modifyGet fun store => store.internBasic code
  | none => findType name

mutual

/-- The number of a type, which is inserted if it has no name. -/
def TypeTerm.resolve : TypeTerm → Resolve TypeNumber
  | .named name => resolveName name
  | .pointer mode pointee => do
    let resolved ← pointee.resolve
    insertType (.pointer mode resolved)
  | .array element capacity => do
    let resolved ← element.resolve
    insertType (.array resolved capacity)
  | .function signature => do
    let resolved ← signature.resolve
    insertType (.function resolved)

def FieldTerm.resolve : FieldTerm → Resolve Field
  | ⟨name, type⟩ => do
    let number ← type.resolve
    return ⟨name, number⟩

def SignatureTerm.resolve : SignatureTerm → Resolve FunctionType
  | ⟨params, results⟩ => do
    let inputs ← resolveFields params
    let outputs ← resolveFields results
    return ⟨inputs, outputs⟩

def resolveFields : List FieldTerm → Resolve (List Field)
  | [] => return []
  | field :: later => do
    let first ← field.resolve
    let others ← resolveFields later
    return first :: others

end

def PrototypeTerm.resolve (prototype : PrototypeTerm) : Resolve Prototype := do
  let type ← prototype.signature.resolve
  return ⟨prototype.name, type⟩

/-- Announces a struct; other entries wait. -/
def TypeEntry.announce : TypeEntry → Resolve Unit
  | .struct name _ => do
    let (_, store) ← (← get).announce name
    set store
  | .trait .. | .aliasOf .. => return

/-- Inserts what an entry says, when all structs are announced. -/
def TypeEntry.fill : TypeEntry → Resolve Unit
  | .struct name fields => do
    let number ← findType name
    fields.forM fun field => do
      extendStruct number (← field.resolve)
  | .trait name prototypes => do
    let resolved ← prototypes.mapM PrototypeTerm.resolve
    discard (insertType (.trait name resolved))
  | .aliasOf name target => do
    let resolved ← target.resolve
    discard (insertType (.aliasOf name resolved))

/-- An instruction with the position of its callee among the names of all
entries. -/
def InstructionTerm.resolve (names : List String) :
    InstructionTerm → Except DescriptionError Instruction
  | .compute operator target left right => return .compute operator target left right
  | .branch target test left right => return .branch target test left right
  | .jump target => return .jump target
  | .invoke callee args results =>
    match names.idxOf? callee with
    | some number => return .invoke number args results
    | none => throw (.noSuchCallee callee)
  | .leave => return .leave

def resolveBlock (names : List String) (block : List InstructionTerm) :
    Except DescriptionError Block :=
  block.mapM (InstructionTerm.resolve names)

def resolveBlocks (names : List String) (blocks : List (List InstructionTerm)) :
    Except DescriptionError (List Block) :=
  blocks.mapM (resolveBlock names)

def BodyTerm.resolve (names : List String) (body : BodyTerm) : Resolve Body := do
  let registers ← body.registers.mapM TypeTerm.resolve
  let blocks ← resolveBlocks names body.blocks
  return ⟨registers, blocks⟩

def CalleeEntry.resolve (names : List String) : CalleeEntry → Resolve Callee
  | .native name symbol signature => do
    let type ← signature.resolve
    return .native ⟨name, type, symbol⟩
  | .inlined name signature body => do
    let type ← signature.resolve
    return .inlined ⟨name, type, ← body.resolve names⟩
  | .compiled name signature body => do
    let type ← signature.resolve
    return .compiled ⟨name, type, ← body.resolve names⟩

/-- The program with the callee of one more entry. -/
def insertEntry (names : List String) (program : Program) (entry : CalleeEntry) :
    Except DescriptionError Program := do
  let (callee, types) ← (entry.resolve names).run program.types
  let (_, extended) ← { program with types }.insertCallee callee
  return extended

/-- The store of all types with an entry. -/
def buildTypes (pointerSize : PointerSize) (entries : List TypeEntry) :
    Except DescriptionError TypeStore := do
  let build : Resolve Unit := do
    entries.forM TypeEntry.announce
    entries.forM TypeEntry.fill
  let (_, store) ← build.run (.empty pointerSize)
  return store

end Description

def Description.build (description : Description) : Except DescriptionError Program := do
  let types ← buildTypes description.pointerSize description.types
  let names := description.callees.map CalleeEntry.name
  if let some name := firstRepeat [] names then
    throw (.repeatedCallee name)
  description.callees.foldlM (insertEntry names) ⟨description.name, types, []⟩

/-- The program that a text describes.  A given size of pointers wins over
the one of the description. -/
def Program.ofText (text : String) (pointerSize : Option PointerSize) :
    Except DescriptionError Program :=
  match Description.ofText? text with
  | none => .error .malformed
  | some description =>
    Description.build
      { description with pointerSize := pointerSize.getD description.pointerSize }

end CBackend
