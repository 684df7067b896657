import CBackend.Proofs.C.Types

/-!
# The declaration of a type

Something of a type can be declared in more than one way, since parentheses
may stand where none are needed.  The declaration given here has them only
around pointers to arrays and to functions, where the dimension or the
parameter list would bind to the declared name otherwise.

The names of parameters say nothing about the type.  Once they are taken
away, the declarations of one name under two types are equal exactly if the
types are.
-/

namespace CBackend.C

/-- Whether a declarator of the type binds before a pointer does. -/
def Ty.bindsFirst : Ty → Bool
  | .array .. | .function .. => true
  | .void | .basic _ | .tagged _ | .aggregate _ | .pointer _ => false

mutual

/-- The declaration of something of a type. -/
def Ty.declaration (declared : Declarator) : Ty → Declaration
  | .void => ⟨.void, declared⟩
  | .basic name => ⟨.named name, declared⟩
  | .tagged tag => ⟨.tagged tag, declared⟩
  | .aggregate members => ⟨.anonymous (declarations members), declared⟩
  | .pointer target => target.declaration
      (if target.bindsFirst then .group (.pointer declared) else .pointer declared)
  | .array element length => element.declaration (.array declared length)
  | .function params result =>
    result.declaration (.function declared (declarations params))

def Entity.declaration : Entity → Declaration
  | ⟨name, type⟩ => type.declaration (.name name)

def declarations : List Entity → List Declaration
  | [] => []
  | entity :: later => entity.declaration :: declarations later

end

mutual

/-- The declaration of a type is read as that type. -/
theorem Ty.entity_declaration (type : Ty) (declared : Declarator) :
    (type.declaration declared).entity = declared.entityOf type := by
  cases type with
  | void => rfl
  | basic name => rfl
  | tagged tag => rfl
  | aggregate members =>
      rw [Ty.declaration, Declaration.entity, Specifier.type, entities_declarations]
  | pointer target =>
      rw [Ty.declaration, target.entity_declaration]
      cases target.bindsFirst with
      | true => rfl
      | false => rfl
  | array element length =>
      rw [Ty.declaration, element.entity_declaration]
      rfl
  | function params result =>
      rw [Ty.declaration, result.entity_declaration, Declarator.entityOf,
        entities_declarations]

theorem Entity.entity_declaration (entity : Entity) : entity.declaration.entity = entity := by
  obtain ⟨name, type⟩ := entity
  rw [Entity.declaration, type.entity_declaration]
  rfl

theorem entities_declarations (all : List Entity) : entities (declarations all) = all := by
  cases all with
  | nil => rfl
  | cons first later =>
      rw [declarations, entities, first.entity_declaration, entities_declarations later]

end

/-- Another name in the place of the declared one. -/
def Declarator.rename (new : String) : Declarator → Declarator
  | .name _ => .name new
  | .pointer inner => .pointer (inner.rename new)
  | .group inner => .group (inner.rename new)
  | .array inner dimension => .array (inner.rename new) dimension
  | .function inner params => .function (inner.rename new) params

def Declaration.rename (new : String) (declaration : Declaration) : Declaration :=
  ⟨declaration.specifier, declaration.declarator.rename new⟩

mutual

/-- A declaration without the names of parameters, at any depth.  The
declared name and the names of members stay. -/
def Declaration.unnamed : Declaration → Declaration
  | ⟨specifier, declarator⟩ => ⟨specifier.unnamed, declarator.unnamed⟩

def Specifier.unnamed : Specifier → Specifier
  | .void => .void
  | .named name => .named name
  | .tagged tag => .tagged tag
  | .anonymous members => .anonymous (unnamedMembers members)

def Declarator.unnamed : Declarator → Declarator
  | .name text => .name text
  | .pointer inner => .pointer inner.unnamed
  | .group inner => .group inner.unnamed
  | .array inner dimension => .array inner.unnamed dimension
  | .function inner params => .function inner.unnamed (unnamedParams params)

def unnamedMembers : List Declaration → List Declaration
  | [] => []
  | member :: later => member.unnamed :: unnamedMembers later

def unnamedParams : List Declaration → List Declaration
  | [] => []
  | param :: later => param.unnamed.rename "" :: unnamedParams later

end

mutual

/-- A type without the names of parameters, at any depth. -/
def Ty.unnamed : Ty → Ty
  | .void => .void
  | .basic name => .basic name
  | .tagged tag => .tagged tag
  | .aggregate members => .aggregate (Ty.unnamedMembers members)
  | .pointer target => .pointer target.unnamed
  | .array element length => .array element.unnamed length
  | .function params result => .function (Ty.unnamedParams params) result.unnamed

def Entity.unnamed : Entity → Entity
  | ⟨name, type⟩ => ⟨name, type.unnamed⟩

def Ty.unnamedMembers : List Entity → List Entity
  | [] => []
  | member :: later => member.unnamed :: Ty.unnamedMembers later

def Ty.unnamedParams : List Entity → List Entity
  | [] => []
  | param :: later => { param.unnamed with name := "" } :: Ty.unnamedParams later

end

theorem Ty.unnamed_bindsFirst (type : Ty) : type.unnamed.bindsFirst = type.bindsFirst := by
  cases type <;> rfl

/-- The declared name is no part of the type. -/
theorem Ty.rename_declaration (type : Ty) (new : String) (declared : Declarator) :
    (type.declaration declared).rename new = type.declaration (declared.rename new) := by
  cases type with
  | void => rfl
  | basic name => rfl
  | tagged tag => rfl
  | aggregate members => rfl
  | pointer target =>
      rw [Ty.declaration, Ty.declaration, target.rename_declaration]
      cases target.bindsFirst with
      | true => rfl
      | false => rfl
  | array element length =>
      rw [Ty.declaration, Ty.declaration, element.rename_declaration, Declarator.rename]
  | function params result =>
      rw [Ty.declaration, Ty.declaration, result.rename_declaration, Declarator.rename]

theorem Entity.rename_declaration (entity : Entity) (new : String) :
    entity.declaration.rename new = { entity with name := new }.declaration := by
  obtain ⟨name, type⟩ := entity
  exact type.rename_declaration new (.name name)

mutual

/-- Taking the names from a declaration takes them from its type. -/
theorem Ty.unnamed_declaration (type : Ty) (declared : Declarator) :
    (type.declaration declared).unnamed = type.unnamed.declaration declared.unnamed := by
  cases type with
  | void => rfl
  | basic name => rfl
  | tagged tag => rfl
  | aggregate members =>
      rw [Ty.unnamed, Ty.declaration, Ty.declaration, Declaration.unnamed, Specifier.unnamed,
        unnamedMembers_declarations]
  | pointer target =>
      rw [Ty.unnamed, Ty.declaration, Ty.declaration, target.unnamed_declaration,
        target.unnamed_bindsFirst]
      cases target.bindsFirst with
      | true => rfl
      | false => rfl
  | array element length =>
      rw [Ty.unnamed, Ty.declaration, Ty.declaration, element.unnamed_declaration,
        Declarator.unnamed]
  | function params result =>
      rw [Ty.unnamed, Ty.declaration, Ty.declaration, result.unnamed_declaration,
        Declarator.unnamed, unnamedParams_declarations]

theorem Entity.unnamed_declaration (entity : Entity) :
    entity.declaration.unnamed = entity.unnamed.declaration := by
  obtain ⟨name, type⟩ := entity
  rw [Entity.declaration, type.unnamed_declaration]
  rfl

theorem unnamedMembers_declarations (members : List Entity) :
    unnamedMembers (declarations members) = declarations (Ty.unnamedMembers members) := by
  cases members with
  | nil => rfl
  | cons first later =>
      rw [Ty.unnamedMembers, declarations, declarations, unnamedMembers,
        first.unnamed_declaration, unnamedMembers_declarations later]

theorem unnamedParams_declarations (params : List Entity) :
    unnamedParams (declarations params) = declarations (Ty.unnamedParams params) := by
  cases params with
  | nil => rfl
  | cons first later =>
      rw [Ty.unnamedParams, declarations, declarations, unnamedParams,
        first.unnamed_declaration, unnamedParams_declarations later,
        Entity.rename_declaration]

end

/-- Two declarations of one name are equal up to the names of parameters
exactly if their types are. -/
theorem unnamed_declaration_eq_iff {first second : Ty} (name : String) :
    (first.declaration (.name name)).unnamed = (second.declaration (.name name)).unnamed ↔
      first.unnamed = second.unnamed := by
  rw [first.unnamed_declaration, second.unnamed_declaration]
  constructor
  · intro same
    have read := congrArg Declaration.entity same
    rw [Ty.entity_declaration, Ty.entity_declaration] at read
    exact congrArg Entity.type read
  · intro same
    rw [same]

end CBackend.C
