import CBackend.Signature

/-!
# Shapes of types

A type is one level of structure over the numbers of other types; the store
that holds the types gives the numbers their meaning.  Structs, traits and
aliases are known by a name.

Types are numbered without a bound.  Numbers of 32 bits are enough as long as
a store holds fewer than 2^32 types, which is assumed throughout.
-/

namespace CBackend

/-- The position of a type in its store. -/
abbrev TypeNumber := Nat

/-- A name with a type: a member of a struct, a parameter or a result. -/
structure Field where
  name : String
  type : TypeNumber
deriving DecidableEq, Repr

structure FunctionType where
  params : List Field
  results : List Field
deriving DecidableEq, Repr

/-- The types of all parameters, then of all results. -/
def FunctionType.mentions (type : FunctionType) : List TypeNumber :=
  (type.params ++ type.results).map Field.type

/-- The discipline under which a pointer is used. -/
inductive PointerMode where
  /-- Never null and always checked. -/
  | safe
  /-- Never checked. -/
  | raw
  /-- May be null; `checked` says that the check was already made. -/
  | nullable (checked : Bool)
deriving DecidableEq, Repr

structure Prototype where
  name : String
  type : FunctionType
deriving DecidableEq, Repr

inductive Shape where
  | basic (code : BasicCode)
  | pointer (mode : PointerMode) (pointee : TypeNumber)
  | array (element : TypeNumber) (capacity : Nat)
  /-- The signature is that of the fields as they were when each was added. -/
  | struct (name : String) (fields : List Field) (signature : Signature)
  | function (type : FunctionType)
  /-- A table of functions. -/
  | trait (name : String) (prototypes : List Prototype)
  | aliasOf (name : String) (target : TypeNumber)
deriving DecidableEq, Repr

namespace Shape

def name? : Shape → Option String
  | .struct name .. | .trait name _ | .aliasOf name _ => some name
  | .basic _ | .pointer .. | .array .. | .function _ => none

def word : Shape → String
  | .basic _ => "basic"
  | .pointer .. => "pointer"
  | .array .. => "array"
  | .struct .. => "struct"
  | .function _ => "func"
  | .trait .. => "trait"
  | .aliasOf .. => "alias"

def mentions : Shape → List TypeNumber
  | .basic _ => []
  | .pointer _ pointee => [pointee]
  | .array element _ => [element]
  | .struct _ fields _ => fields.map Field.type
  | .function type => type.mentions
  | .trait _ prototypes => prototypes.flatMap fun prototype => prototype.type.mentions
  | .aliasOf _ target => [target]

/-- The types whose values lie inside a value of this shape.  Pointers,
arrays, functions and traits hold only addresses. -/
def embedded : Shape → List TypeNumber
  | .struct _ fields _ => fields.map Field.type
  | .aliasOf _ target => [target]
  | .basic _ | .pointer .. | .array .. | .function _ | .trait .. => []

def isArray : Shape → Bool
  | .array .. => true
  | _ => false

end Shape

end CBackend
