import CBackend.Proofs.C.Canonical
import CBackend.Proofs.Lowering.DeclarationLayers
import CBackend.Proofs.TypeStore.History

/-!
# Types as C reads them

Every type of a store has a meaning in C that does not depend on how it is
written: a pointer is a pointer, a function is a pointer to a function of the
meanings of its parameters and results, and an alias is what it stands for.

The text of a declaration is written from the inside out, with parentheses
in two places only.  Reading it gives back the name and the meaning, for all
nestings of all kinds of types.
-/

namespace CBackend

open C (Ty Entity Declarator Declaration isIdentifier isOptionalName)

/-- Fields under their names, given the meanings of types. -/
def entitiesBy (typeOf : TypeNumber → Option Ty) (fields : List Field) :
    Option (List Entity) :=
  fields.mapM fun field => (typeOf field.type).map fun type => ⟨field.name, type⟩

/-- What a function returns: nothing, the single result, or a struct of all
of them. -/
def resultBy (typeOf : TypeNumber → Option Ty) : List Field → Option Ty
  | [] => some .void
  | [single] => typeOf single.type
  | several => (entitiesBy typeOf several).map .aggregate

def FunctionType.typeBy (typeOf : TypeNumber → Option Ty) (type : FunctionType) :
    Option Ty := do
  let params ← entitiesBy typeOf type.params
  let result ← resultBy typeOf type.results
  return .function params result

def Shape.typeBy (typeOf : TypeNumber → Option Ty) : Shape → Option Ty
  | .basic code => code.cName?.map .basic
  | .struct name .. | .trait name _ => some (.tagged name)
  | .pointer _ pointee => (typeOf pointee).map .pointer
  | .array element capacity => (typeOf element).map (.array · capacity)
  | .function type => (type.typeBy typeOf).map .pointer
  | .aliasOf _ target => typeOf target

namespace TypeStore

/-- The meaning of a type in C.  Basic types without a name in C have none. -/
def typeInC? (store : TypeStore) (number : TypeNumber) : Option Ty := do
  let shape ← store.shapes[number]?
  shape.typeBy fun below => if _ : below < number then store.typeInC? below else none
termination_by number

/-- A declaration declares something of the meaning of a type. -/
def Denotes (typeOf : TypeNumber → Option Ty) : DeclaredAs :=
  fun number declared declaration =>
    ∃ type, typeOf number = some type ∧ declaration.entity = declared.entityOf type

/-- A declaration is the one that the meaning of a type has.  The type is an
array in the store exactly if its meaning binds before a pointer. -/
def Written (store : TypeStore) (typeOf : TypeNumber → Option Ty) : DeclaredAs :=
  fun number declared declaration =>
    ∃ type, typeOf number = some type ∧ store.isArray number = .ok type.bindsFirst ∧
      declaration = type.declaration declared

variable {store : TypeStore} {typeOf : TypeNumber → Option Ty}

theorem FieldsDeclared.written {fields : List Field} {declarations : List Declaration}
    (declared : FieldsDeclared (store.Written typeOf) fields declarations) :
    ∃ entities, entitiesBy typeOf fields = some entities ∧
      declarations = C.declarations entities := by
  induction declared with
  | nil => exact ⟨[], rfl, rfl⟩
  | cons first _ induction =>
      obtain ⟨type, found, _, rfl⟩ := first
      obtain ⟨entities, allFound, rfl⟩ := induction
      rw [entitiesBy] at allFound
      refine ⟨⟨_, type⟩ :: entities, ?_, rfl⟩
      rw [entitiesBy, List.mapM_cons, found, allFound]
      rfl

theorem FunctionDeclared.written {type : FunctionType} {declared : Declarator}
    {declaration : Declaration}
    (function : store.FunctionDeclared (store.Written typeOf) type declared declaration) :
    ∃ params result, type.typeBy typeOf = some (.function params result) ∧
      declaration = (Ty.function params result).declaration declared := by
  cases function with
  | void params =>
      obtain ⟨entities, found, rfl⟩ := params.written
      refine ⟨entities, .void, ?_, rfl⟩
      rw [FunctionType.typeBy, found]
      rfl
  | single params _ returned =>
      obtain ⟨entities, found, rfl⟩ := params.written
      obtain ⟨result, isResult, _, rfl⟩ := returned
      refine ⟨entities, result, ?_, rfl⟩
      rw [FunctionType.typeBy, found]
      dsimp only [resultBy]
      rw [isResult]
      rfl
  | several params members =>
      obtain ⟨entities, found, rfl⟩ := params.written
      obtain ⟨parts, allFound, rfl⟩ := members.written
      refine ⟨entities, .aggregate parts, ?_, rfl⟩
      rw [FunctionType.typeBy, found]
      dsimp only [resultBy]
      rw [allFound]
      rfl

theorem Layer.written {number : TypeNumber} {shape : Shape} {declared : Declarator}
    {declaration : Declaration} (isShape : store.shapeAt number = .ok shape)
    (layer : store.Layer (fun below declared declaration =>
      below < number ∧ store.Written typeOf below declared declaration)
      shape declared declaration) :
    ∃ meaning, shape.typeBy typeOf = some meaning ∧
      store.isArray number = .ok meaning.bindsFirst ∧
      declaration = meaning.declaration declared := by
  cases layer with
  | @basic _ name _ named =>
      exact ⟨.basic name, by rw [Shape.typeBy, named]; rfl,
        isArray_of_not_alias isShape rfl, rfl⟩
  | struct => exact ⟨_, rfl, isArray_of_not_alias isShape rfl, rfl⟩
  | trait => exact ⟨_, rfl, isArray_of_not_alias isShape rfl, rfl⟩
  | function inner =>
      obtain ⟨params, result, found, rfl⟩ := (inner.imp And.right).written
      exact ⟨.pointer (.function params result), by rw [Shape.typeBy, found]; rfl,
        isArray_of_not_alias isShape rfl, rfl⟩
  | @array _ capacity _ _ inner =>
      obtain ⟨_, meaning, found, _, rfl⟩ := inner
      exact ⟨.array meaning capacity, by rw [Shape.typeBy, found]; rfl,
        isArray_of_not_alias isShape rfl, rfl⟩
  | pointer isArray inner =>
      obtain ⟨_, meaning, found, binds, rfl⟩ := inner
      rw [isArray] at binds
      cases binds
      exact ⟨.pointer meaning, by rw [Shape.typeBy, found]; rfl,
        isArray_of_not_alias isShape rfl, rfl⟩
  | aliasOf inner =>
      obtain ⟨below, meaning, found, binds, rfl⟩ := inner
      exact ⟨meaning, found, (isArray_alias isShape below).trans binds, rfl⟩

/-- Whatever is declared is written as the meaning of its type is. -/
theorem declare_written {number : TypeNumber} {declared : Declarator}
    {declaration : Declaration}
    (success : store.declare number declared = .ok declaration) :
    store.Written store.typeInC? number declared declaration := by
  refine declare_induction ?_ success
  intro number shape declared declaration isShape layer
  have bounded : store.Layer (fun below declared declaration =>
      below < number ∧ store.Written (fun below =>
        if _ : below < number then store.typeInC? below else none)
        below declared declaration) shape declared declaration := by
    refine layer.imp ?_
    rintro below declared declaration ⟨smaller, type, found, written⟩
    exact ⟨smaller, type, (dif_pos smaller).trans found, written⟩
  obtain ⟨meaning, found, written⟩ := bounded.written isShape
  refine ⟨meaning, ?_, written⟩
  rw [typeInC?, shapeAt_ok_iff.mp isShape]
  exact found

/-- Whatever is declared has the meaning of its type. -/
theorem declare_denotes {number : TypeNumber} {declared : Declarator}
    {declaration : Declaration}
    (success : store.declare number declared = .ok declaration) :
    Denotes store.typeInC? number declared declaration := by
  obtain ⟨type, found, _, rfl⟩ := declare_written success
  exact ⟨type, found, type.entity_declaration declared⟩

theorem declareFunction_written {type : FunctionType} {declared : Declarator}
    {declaration : Declaration}
    (success : store.declareFunction type declared = .ok declaration) :
    ∃ meaning, type.typeBy store.typeInC? = some meaning ∧
      declaration = meaning.declaration declared := by
  obtain ⟨params, result, found, written⟩ :=
    (declareFunction_declared declare_written success).written
  exact ⟨_, found, written⟩

theorem declareFunction_denotes {type : FunctionType} {declared : Declarator}
    {declaration : Declaration}
    (success : store.declareFunction type declared = .ok declaration) :
    ∃ meaning, type.typeBy store.typeInC? = some meaning ∧
      declaration.entity = declared.entityOf meaning := by
  obtain ⟨meaning, found, rfl⟩ := declareFunction_written success
  exact ⟨meaning, found, meaning.entity_declaration declared⟩

end TypeStore

/-- Parameters and results have identifiers as names, or none. -/
def FunctionType.namesFit (type : FunctionType) : Bool :=
  (type.params ++ type.results).all fun field => isOptionalName field.name

/-- All names in a type are identifiers; parameters and results may have
none. -/
def Shape.namesFit : Shape → Bool
  | .struct name fields _ =>
    isIdentifier name && fields.all fun field => isIdentifier field.name
  | .trait name prototypes => isIdentifier name &&
    prototypes.all fun prototype => isIdentifier prototype.name && prototype.type.namesFit
  | .aliasOf name _ => isIdentifier name
  | .function type => type.namesFit
  | .basic _ | .pointer .. | .array .. => true

namespace TypeStore

def namesFit (store : TypeStore) : Bool := store.shapes.all Shape.namesFit

/-- A legible declaration is made from a legible declarator, unless the
dimension of an array would bind to a pointer. -/
def KeepsLegible (store : TypeStore) : DeclaredAs :=
  fun number declared declaration =>
    declared.Legible →
      (declared.isPointer = false ∨ store.isArray number = .ok false) →
        declaration.Legible

variable {store : TypeStore}

theorem fields_legible {fields : List Field} {declarations : List Declaration}
    (named : ∀ field ∈ fields, isOptionalName field.name = true)
    (declared : FieldsDeclared store.KeepsLegible fields declarations) :
    C.AllLegible declarations := by
  induction declared with
  | nil => trivial
  | cons first _ induction =>
      refine ⟨first (named _ List.mem_cons_self) (.inl rfl), induction ?_⟩
      intro field member
      exact named field (List.mem_cons_of_mem _ member)

theorem FunctionDeclared.legible {type : FunctionType} {declared : Declarator}
    {declaration : Declaration} (named : type.namesFit = true)
    (legible : declared.Legible) (direct : declared.isPointer = false)
    (function : store.FunctionDeclared store.KeepsLegible type declared declaration) :
    declaration.Legible := by
  rw [FunctionType.namesFit, List.all_append, Bool.and_eq_true, List.all_eq_true,
    List.all_eq_true] at named
  obtain ⟨paramsNamed, resultsNamed⟩ := named
  cases function with
  | void params =>
      exact ⟨trivial, ⟨direct, legible, fields_legible paramsNamed params⟩, .inr rfl⟩
  | single params _ returned =>
      exact returned ⟨direct, legible, fields_legible paramsNamed params⟩ (.inl rfl)
  | several params members =>
      exact ⟨fields_legible resultsNamed members,
        ⟨direct, legible, fields_legible paramsNamed params⟩, .inr rfl⟩

theorem declare_legible (named : store.namesFit = true) {number : TypeNumber}
    {declared : Declarator} {declaration : Declaration}
    (success : store.declare number declared = .ok declaration) :
    store.KeepsLegible number declared declaration := by
  refine declare_induction ?_ success
  intro number shape declared declaration isShape layer legible ungrouped
  have fits : shape.namesFit = true :=
    List.all_eq_true.mp named shape (List.mem_of_getElem? (shapeAt_ok_iff.mp isShape))
  cases layer with
  | basic isNamed => exact ⟨BasicCode.mem_cNames isNamed, legible, .inl rfl⟩
  | struct =>
      rw [Shape.namesFit, Bool.and_eq_true] at fits
      exact ⟨fits.1, legible, .inl rfl⟩
  | trait =>
      rw [Shape.namesFit, Bool.and_eq_true] at fits
      exact ⟨fits.1, legible, .inl rfl⟩
  | function inner =>
      have grouped : (Declarator.group (.pointer declared)).Legible := ⟨rfl, legible⟩
      exact FunctionDeclared.legible fits grouped rfl (inner.imp And.right)
  | array inner =>
      refine inner.2 ⟨?_, legible⟩ (.inl rfl)
      rcases ungrouped with direct | noArray
      · exact direct
      · rw [isArray_of_not_alias isShape rfl] at noArray
        cases noArray
  | @pointer _ _ array _ _ isArray inner =>
      cases array with
      | true => exact inner.2 ⟨rfl, legible⟩ (.inl rfl)
      | false => exact inner.2 legible (.inr isArray)
  | aliasOf inner =>
      rw [isArray_alias isShape inner.1] at ungrouped
      exact inner.2 legible ungrouped

theorem ofText?_declare (named : store.namesFit = true) {number : TypeNumber}
    {name : String} {declaration : Declaration}
    (nameFits : isOptionalName name = true)
    (success : store.declare number (.name name) = .ok declaration) :
    ∃ type, store.typeInC? number = some type ∧
      Entity.ofText? declaration.text = some ⟨name, type⟩ := by
  obtain ⟨type, found, same⟩ := declare_denotes success
  have legible := declare_legible named success nameFits (.inl rfl)
  refine ⟨type, found, ?_⟩
  rw [Entity.ofText?, C.Declaration.ofText?_text legible, Option.map_some, same]
  rfl

theorem declareFunction_legible (named : store.namesFit = true) {type : FunctionType}
    {name : String} {declaration : Declaration} (typeFits : type.namesFit = true)
    (nameFits : isOptionalName name = true)
    (success : store.declareFunction type (.name name) = .ok declaration) :
    declaration.Legible := by
  have legibleName : (Declarator.name name).Legible := nameFits
  exact (declareFunction_declared (declare_legible named) success).legible typeFits
    legibleName rfl

theorem ofText?_declareFunction (named : store.namesFit = true) {type : FunctionType}
    {name : String} {declaration : Declaration} (typeFits : type.namesFit = true)
    (nameFits : isOptionalName name = true)
    (success : store.declareFunction type (.name name) = .ok declaration) :
    ∃ meaning, type.typeBy store.typeInC? = some meaning ∧
      Entity.ofText? declaration.text = some ⟨name, meaning⟩ := by
  obtain ⟨meaning, found, same⟩ := declareFunction_denotes success
  have legible := declareFunction_legible named typeFits nameFits success
  refine ⟨meaning, found, ?_⟩
  rw [Entity.ofText?, C.Declaration.ofText?_text legible, Option.map_some, same]
  rfl

/-- In every store whose names are identifiers, the text of a declaration is
read back as the declared name with the meaning of its type, and likewise for
functions.  So types of different meaning are never written alike. -/
theorem declaration_texts_read_back (pointerSize : PointerSize)
    (operations : List Operation)
    (named : (history pointerSize operations).namesFit = true) :
    let store := history pointerSize operations
    (∀ number name declaration, isOptionalName name = true →
      store.declare number (.name name) = .ok declaration →
        ∃ type, store.typeInC? number = some type ∧
          Entity.ofText? declaration.text = some ⟨name, type⟩) ∧
    (∀ (type : FunctionType) name declaration, type.namesFit = true →
      isOptionalName name = true →
      store.declareFunction type (.name name) = .ok declaration →
        ∃ meaning, type.typeBy store.typeInC? = some meaning ∧
          Entity.ofText? declaration.text = some ⟨name, meaning⟩) ∧
    ∀ left right name first second, isOptionalName name = true →
      store.declare left (.name name) = .ok first →
      store.declare right (.name name) = .ok second →
      store.typeInC? left ≠ store.typeInC? right → first.text ≠ second.text := by
  intro store
  refine ⟨?_, ?_, ?_⟩
  · intro number name declaration nameFits success
    exact ofText?_declare named nameFits success
  · intro type name declaration typeFits nameFits success
    exact ofText?_declareFunction named typeFits nameFits success
  · intro left right name first second nameFits firstSuccess secondSuccess differ same
    obtain ⟨firstType, firstFound, firstRead⟩ := ofText?_declare named nameFits firstSuccess
    obtain ⟨secondType, secondFound, secondRead⟩ :=
      ofText?_declare named nameFits secondSuccess
    rw [same, secondRead] at firstRead
    cases firstRead
    exact differ (firstFound.trans secondFound.symm)

/-- A pointer to an array of functions over pointers to a struct, and a
function that returns it together with such a pointer. -/
def handlerOperations : List Operation :=
  [.intern ⟨0o23⟩, .announce "Node", .insert (.pointer .safe 1),
    .insert (.function ⟨[⟨"node", 2⟩, ⟨"", 0⟩], [⟨"", 0⟩]⟩), .insert (.array 3 10),
    .insert (.pointer .raw 4), .insert (.aliasOf "Table" 5),
    .insert (.function ⟨[], [⟨"table", 6⟩, ⟨"root", 2⟩]⟩)]

def handlerMeaning : Ty :=
  .pointer (.function []
    (.aggregate [⟨"table", .pointer (.array (.pointer (.function
      [⟨"node", .pointer (.tagged "Node")⟩, ⟨"", .basic "int32_t"⟩]
      (.basic "int32_t"))) 10)⟩, ⟨"root", .pointer (.tagged "Node")⟩]))

theorem handlers_read_back : ∃ declaration,
    (history .eight handlerOperations).declare 7 (.name "f") = .ok declaration ∧
    declaration.text = "struct\x7bint32_t (*(*table)[a])(struct Node *node,int32_t);" ++
      "struct Node *root;\x7d (*f)(void)" ∧
    Entity.ofText? declaration.text = some ⟨"f", handlerMeaning⟩ := by
  refine ⟨_, by with_unfolding_all rfl, by with_unfolding_all rfl, ?_⟩
  have named : (history .eight handlerOperations).namesFit = true := by
    with_unfolding_all rfl
  have meaning : (history .eight handlerOperations).typeInC? 7 = some handlerMeaning := by
    with_unfolding_all rfl
  obtain ⟨type, found, read⟩ := (declaration_texts_read_back .eight handlerOperations
    named).1 7 "f" _ (by decide) (by with_unfolding_all rfl)
  rw [meaning] at found
  cases found
  exact read

end TypeStore

end CBackend
