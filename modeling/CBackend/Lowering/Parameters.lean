import CBackend.Program.Basic

/-!
# Parameter names of definitions

A definition names its parameters so that they can be told apart and hide
nothing the definition mentions.  A declared name is kept if it serves;
otherwise the parameter gets the first free name among `p<i>`, `p<i>_1`,
`p<i>_2` and so on, where `i` is its position.
-/

namespace CBackend

namespace Parameters

def keywords : List String :=
  ["auto", "break", "case", "char", "const", "continue", "default", "do", "double", "else",
   "enum", "extern", "float", "for", "goto", "if", "inline", "int", "long", "register",
   "restrict", "return", "short", "signed", "sizeof", "static", "struct", "switch", "typedef",
   "union", "unsigned", "void", "volatile", "while", "_Bool", "_Complex", "_Imaginary"]

def looksLikeRegister (name : String) : Bool :=
  match name.toList with
  | 'r' :: digit :: digits => (digit :: digits).all Char.isDigit
  | _ => false

def looksLikeTemporary (name : String) : Bool := "_ret".toList.isSuffixOf name.toList

/-- Whether a declared name may stand in a definition, where the reserved
names must not be hidden. -/
def isUsable (reserved : List String) (name : String) : Bool :=
  name != "" && !looksLikeRegister name && !looksLikeTemporary name &&
    !keywords.contains name && !reserved.contains name

/-- For each name whether it is kept: it is usable and does not repeat a
name kept before. -/
def kept (reserved taken : List String) : List String → List Bool
  | [] => []
  | name :: later =>
    if isUsable reserved name && !taken.contains name then
      true :: kept reserved (name :: taken) later
    else false :: kept reserved taken later

/-- The names to try for the parameter at `index`. -/
def candidate (index : Nat) : Nat → String
  | 0 => s!"p{index}"
  | suffix + 1 => s!"p{index}_" ++ toString (suffix + 1)

/-- The first candidate that is not in use.  One more candidate than there
are names in use is enough. -/
def freshName (used : List String) (index : Nat) : String :=
  let suffix := (List.range (used.length + 1)).find? fun suffix =>
    !used.contains (candidate index suffix)
  candidate index (suffix.getD used.length)

/-- Gives every field that is not kept a fresh name, from left to right. -/
def rename (reserved taken : List String) (index : Nat) : List (Field × Bool) → List Field
  | [] => []
  | (field, true) :: later => field :: rename reserved taken (index + 1) later
  | (field, false) :: later =>
    let name := freshName (taken ++ reserved) index
    { field with name } :: rename reserved (name :: taken) (index + 1) later

/-- The parameters under the names they have in a definition. -/
def forDefinition (reserved : List String) (params : List Field) : List Field :=
  let marked := params.zip (kept reserved [] (params.map Field.name))
  let taken := (marked.filter (·.2)).map (·.1.name)
  rename reserved taken 0 marked

end Parameters

namespace Program

/-- The names with file scope: compiled functions and link symbols. -/
def globals (program : Program) : List String :=
  program.callees.filterMap Callee.symbol?

/-- The type of a compiled function with the parameter names of its
definition. -/
def definitionType (program : Program) (type : FunctionType) : FunctionType :=
  { type with params := Parameters.forDefinition program.globals type.params }

end Program

end CBackend
