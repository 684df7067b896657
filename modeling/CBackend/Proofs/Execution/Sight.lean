import CBackend.Proofs.Lowering.TextRegions
import CBackend.Proofs.Lowering.TypeNames

/-!
# Types in sight

A type that is mentioned by its name has to be in sight: nothing of the same
name may have been declared before it, in the same block or around it.  The
parameters of a prototype are in scope up to the end of their list, those of
a definition up to the end of the definition.  The integer types are declared
for the whole file, so no function may have the name of one.

A text in which a type is hidden cannot be compiled, and nothing in it runs.
-/

namespace CBackend.C

mutual

/-- Whether a declaration mentions no type whose name is hidden. -/
def Declaration.seesTypes : List String → Declaration → Bool
  | hidden, ⟨specifier, declarator⟩ =>
    specifier.seesTypes hidden && declarator.seesTypes hidden

def Specifier.seesTypes : List String → Specifier → Bool
  | _, .void | _, .tagged _ => true
  | hidden, .named name => !hidden.contains name
  | hidden, .anonymous members => membersSeeTypes hidden members

def Declarator.seesTypes : List String → Declarator → Bool
  | _, .name _ => true
  | hidden, .pointer inner | hidden, .group inner | hidden, .array inner _ =>
    inner.seesTypes hidden
  | hidden, .function inner params =>
    inner.seesTypes hidden && paramsSeeTypes hidden params

/-- Members hide nothing. -/
def membersSeeTypes : List String → List Declaration → Bool
  | _, [] => true
  | hidden, member :: later => member.seesTypes hidden && membersSeeTypes hidden later

/-- A parameter hides the type of its name from those after it. -/
def paramsSeeTypes : List String → List Declaration → Bool
  | _, [] => true
  | hidden, param :: later =>
    param.seesTypes hidden && paramsSeeTypes (param.declarator.declared :: hidden) later

end

/-- Whether the head of a definition sees its types.  Parameters are still in
scope where the type of the result goes on behind their list. -/
def Declarator.headSeesTypes : Declarator → Bool
  | .name _ => true
  | .function (.name _) params => paramsSeeTypes [] params
  | .pointer inner | .group inner | .array inner _ => inner.headSeesTypes
  | .function inner params =>
    inner.headSeesTypes &&
      paramsSeeTypes (inner.parameters.map (·.declarator.declared)) params

namespace Spelled

mutual

def Item.seesTypes : List String → Item → Bool
  | hidden, .declare declaration => declaration.seesTypes hidden
  | hidden, .block items => itemsSeeTypes hidden items
  | _, .statement _ | _, .label _ | _, .emptyLabel _ => true

/-- What has been declared in a block hides the types of its name there and in
nested blocks. -/
def itemsSeeTypes : List String → List Item → Bool
  | _, [] => true
  | hidden, item :: later =>
    item.seesTypes hidden && itemsSeeTypes (item.declared?.toList ++ hidden) later

end

def Definition.seesTypes (definition : Definition) : Bool :=
  definition.head.specifier.seesTypes [] && definition.head.declarator.headSeesTypes &&
    itemsSeeTypes definition.paramNames definition.items

/-- The functions that a source declares. -/
def Source.functionNames (source : Source) : List String :=
  (source.linked ++ source.definitions.map Definition.head).map (·.declarator.declared)

/-- Whether all types are in sight where they are mentioned. -/
def Source.seesTypes (source : Source) : Bool :=
  source.functionNames.all (!Lowering.integerNames.contains ·) &&
    source.linked.all (Declaration.seesTypes []) &&
    source.definitions.all Definition.seesTypes

end Spelled

end CBackend.C
