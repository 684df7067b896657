import CBackend.Proofs.C.Reading

/-!
# What a declaration says

A declaration gives a name a type.  The specifier gives the type that stands
at the far end, and the declarator is read from the outside to the name:
what is declared is a pointer to, an array of, or a function with the type
that has been found so far.
-/

namespace CBackend.C

mutual

inductive Ty where
  | void
  | basic (name : String)
  | tagged (tag : String)
  | aggregate (members : List Entity)
  | pointer (target : Ty)
  | array (element : Ty) (length : Nat)
  | function (params : List Entity) (result : Ty)

/-- A name with a type.  Parameters and members may lack a name. -/
structure Entity where
  name : String
  type : Ty

end

mutual

def Declaration.entity : Declaration → Entity
  | ⟨specifier, declarator⟩ => declarator.entityOf specifier.type

def Specifier.type : Specifier → Ty
  | .void => .void
  | .named name => .basic name
  | .tagged tag => .tagged tag
  | .anonymous members => .aggregate (entities members)

/-- What a declarator declares, where `type` is the type around it. -/
def Declarator.entityOf (type : Ty) : Declarator → Entity
  | .name text => ⟨text, type⟩
  | .pointer inner => inner.entityOf (.pointer type)
  | .group inner => inner.entityOf type
  | .array inner dimension => inner.entityOf (.array type dimension)
  | .function inner params => inner.entityOf (.function (entities params) type)

def entities : List Declaration → List Entity
  | [] => []
  | declaration :: later => declaration.entity :: entities later

end

/-- What a text declares, if it is a declaration. -/
def Entity.ofText? (text : String) : Option Entity :=
  (Declaration.ofText? text).map Declaration.entity

end CBackend.C
