import CBackend.Proofs.Lowering.LocalNames

/-!
# Names of basic types

A declaration mentions basic types by their names in C, in its specifier and
in the parameter lists of its declarator.  Nothing but these names is
mentioned, and no register or temporary is spelled like one of them.  Among
parameters only a kept name can be, since a generated one begins with a
letter of its own.
-/

namespace CBackend

namespace C

mutual

/-- The names of basic types that a declaration mentions. -/
def Declaration.typeNames : Declaration → List String
  | ⟨specifier, declarator⟩ => specifier.typeNames ++ declarator.typeNames

def Specifier.typeNames : Specifier → List String
  | .void | .tagged _ => []
  | .named name => [name]
  | .anonymous members => listTypeNames members

def Declarator.typeNames : Declarator → List String
  | .name _ => []
  | .pointer inner | .group inner | .array inner _ => inner.typeNames
  | .function inner params => inner.typeNames ++ listTypeNames params

def listTypeNames : List Declaration → List String
  | [] => []
  | declaration :: later => declaration.typeNames ++ listTypeNames later

end

theorem mem_listTypeNames {name : String} {declarations : List Declaration} :
    name ∈ listTypeNames declarations ↔
      ∃ declaration ∈ declarations, name ∈ declaration.typeNames := by
  induction declarations with
  | nil => simp [listTypeNames]
  | cons first later induction => simp [listTypeNames, induction]

namespace Declarator

/-- The declarations that stand in a declarator after the parameters of the
declared function. -/
def later : Declarator → List Declaration
  | .name _ | .function (.name _) _ => []
  | .pointer inner | .group inner | .array inner _ => inner.later
  | .function inner params => inner.later ++ params

theorem typeNames_of_mem_parameters {declarator : Declarator} {param : Declaration}
    (member : param ∈ declarator.parameters) :
    param.typeNames ⊆ declarator.typeNames := by
  induction declarator using parameters.induct with
  | case1 _ => cases member
  | case2 _ params =>
      intro name mentioned
      exact List.mem_append_right _ (mem_listTypeNames.mpr ⟨param, member, mentioned⟩)
  | case3 inner induction => exact induction member
  | case4 inner induction => exact induction member
  | case5 inner _ induction => exact induction member
  | case6 inner params noName induction =>
      rw [parameters] at member
      · exact List.Subset.trans (induction member) (List.subset_append_left _ _)
      · exact noName

theorem typeNames_of_mem_later {declarator : Declarator} {param : Declaration}
    (member : param ∈ declarator.later) :
    param.typeNames ⊆ declarator.typeNames := by
  induction declarator using later.induct with
  | case1 _ => cases member
  | case2 _ params => cases member
  | case3 inner induction => exact induction member
  | case4 inner induction => exact induction member
  | case5 inner _ induction => exact induction member
  | case6 inner params noName induction =>
      rw [later] at member
      · rcases List.mem_append.mp member with inside | here
        · exact List.Subset.trans (induction inside) (List.subset_append_left _ _)
        · intro name mentioned
          apply List.mem_append_right
          exact mem_listTypeNames.mpr ⟨param, here, mentioned⟩
      · exact noName

end Declarator

end C

/-- The names of the defined codes in C. -/
def BasicCode.cNames : List String := spellings.map (·.2.2)

theorem BasicCode.mem_cNames {code : BasicCode} {name : String}
    (named : code.cName? = some name) : name ∈ cNames := by
  obtain ⟨entry, found, rfl⟩ := Option.map_eq_some_iff.mp named
  obtain ⟨before, after, split, _⟩ := List.lookup_eq_some_iff.mp found
  rw [cNames, split]
  simp

namespace TypeStore

open C (Declarator Declaration)

/-- Declaring mentions basic types only, apart from what it wraps. -/
def MentionsBasics (declare : Declarer) : Prop :=
  ∀ {number declared declaration}, declare number declared = .ok declaration →
    declaration.typeNames ⊆ declared.typeNames ++ BasicCode.cNames

theorem MentionsBasics.fields {declare : Declarer} {fields : List Field}
    {declarations : List Declaration} (basics : MentionsBasics declare)
    (success : declareFieldsBy declare fields = .ok declarations) :
    C.listTypeNames declarations ⊆ BasicCode.cNames := by
  have related := Success.mapM_iff.mp success
  clear success
  induction related with
  | nil => exact List.nil_subset _
  | cons first _ induction =>
      exact List.append_subset.mpr ⟨basics first, induction⟩

theorem MentionsBasics.function {store : TypeStore} {declare : Declarer}
    {type : FunctionType} {declared : Declarator} {declaration : Declaration}
    (basics : MentionsBasics declare)
    (success : store.declareFunctionBy declare type declared = .ok declaration) :
    declaration.typeNames ⊆ declared.typeNames ++ BasicCode.cNames := by
  obtain ⟨params, paramsSuccess, success⟩ := Success.bind_iff.mp success
  have wrapped : (Declarator.function declared params).typeNames ⊆
      declared.typeNames ++ BasicCode.cNames := by
    apply List.append_subset.mpr
    exact ⟨List.subset_append_left _ _, List.Subset.trans
      (basics.fields paramsSuccess) (List.subset_append_right _ _)⟩
  rcases results : type.results with _ | ⟨single, _ | ⟨second, others⟩⟩ <;>
    simp only [results] at success
  · cases success
    exact wrapped
  · obtain ⟨array, _, success⟩ := Success.bind_iff.mp success
    cases array with
    | true => cases success
    | false =>
        intro name member
        rcases List.mem_append.mp (basics success member) with inside | basic
        · exact wrapped inside
        · exact List.mem_append_right _ basic
  · obtain ⟨members, membersSuccess, success⟩ := Success.bind_iff.mp success
    cases success
    apply List.append_subset.mpr
    refine ⟨?_, wrapped⟩
    exact List.Subset.trans (basics.fields membersSuccess)
      (List.subset_append_right _ _)

theorem declare_mentionsBasics (store : TypeStore) : MentionsBasics store.declare := by
  intro number declared declaration success
  induction number using Nat.strongRecOn generalizing declared declaration with
  | ind number induction =>
      have below : MentionsBasics fun below declared =>
          if _ : below < number then store.declare below declared
          else .error (.store (.missing below)) := by
        intro below declared declaration success
        dsimp only at success
        split at success
        · rename_i smaller
          exact induction below smaller success
        · cases success
      rw [declare] at success
      obtain ⟨shape, _, success⟩ := Success.bind_iff.mp success
      cases shape with
      | basic code =>
          simp only at success
          split at success
          · rename_i named
            cases success
            intro name member
            rcases List.mem_cons.mp member with rfl | inside
            · exact List.mem_append_right _ (BasicCode.mem_cNames named)
            · exact List.mem_append_left _ inside
          · cases success
      | struct name fields signature =>
          cases success
          exact List.subset_append_left _ _
      | trait name prototypes =>
          cases success
          exact List.subset_append_left _ _
      | function type =>
          have names := below.function success
          exact names
      | array element capacity =>
          have names := below success
          exact names
      | pointer mode pointee =>
          obtain ⟨array, _, success⟩ := Success.bind_iff.mp success
          cases array with
          | true =>
              have names := below success
              exact names
          | false =>
              have names := below success
              exact names
      | aliasOf name target => exact below success

theorem declareFunction_typeNames {store : TypeStore} {type : FunctionType}
    {name : String} {declaration : Declaration}
    (success : store.declareFunction type (.name name) = .ok declaration) :
    declaration.declarator.typeNames ⊆ BasicCode.cNames := by
  have names : declaration.typeNames ⊆ [] ++ BasicCode.cNames :=
    MentionsBasics.function store.declare_mentionsBasics success
  obtain ⟨specifier, declarator⟩ := declaration
  exact (List.append_subset.mp names).2

end TypeStore

namespace Lowering

/-- The basic types whose names are no keywords. -/
def integerNames : List String :=
  ["uint8_t", "uint16_t", "uint32_t", "uint64_t", "int8_t", "int16_t", "int32_t",
   "int64_t"]

/-- Items whose declarations mention basic types only. -/
def DeclaresBasics (items : List C.Item) : Prop :=
  ∀ declaration, .declare declaration ∈ items →
    declaration.typeNames ⊆ BasicCode.cNames

theorem DeclaresBasics.append {left right : List C.Item}
    (first : DeclaresBasics left) (second : DeclaresBasics right) :
    DeclaresBasics (left ++ right) := by
  intro declaration member
  rcases List.mem_append.mp member with inLeft | inRight
  · exact first declaration inLeft
  · exact second declaration inRight

private theorem declaresBasics_of_mapM (typeOf : α → TypeNumber)
    (nameOf : α → String) {types : TypeStore} {entries : List α}
    {items : List C.Item}
    (success : (entries.mapM fun entry => do
      return C.Item.declare (← types.declare (typeOf entry)
        (.name (nameOf entry))) : Except LoweringError _) = .ok items) :
    DeclaresBasics items := by
  have related := Success.mapM_iff.mp success
  clear success
  induction related with
  | nil =>
      intro declaration member
      cases member
  | cons first _ induction =>
      obtain ⟨declared, success, same⟩ := Success.bind_iff.mp first
      cases same
      intro declaration member
      rcases List.mem_cons.mp member with here | later
      · cases here
        exact types.declare_mentionsBasics success
      · exact induction declaration later

theorem declarations_basics {types : TypeStore} {activation : Activation}
    {items : List C.Item} (success : activation.declarations types = .ok items) :
    DeclaresBasics items :=
  declaresBasics_of_mapM Prod.fst (fun entry => (activation.slot entry.2).text) success

theorem temporaries_basics {types : TypeStore}
    {results : List (String × TypeNumber)} {items : List C.Item}
    (success : temporaries types results = .ok items) : DeclaresBasics items :=
  declaresBasics_of_mapM Prod.snd
    (fun entry => (C.Variable.result entry.1).text) success

end Lowering

namespace C.Variable

/-- Variables whose names are made up by lowering. -/
def isGenerated : Variable → Bool
  | .register .. | .result _ => true
  | .param _ => false

/-- Generated variables are never spelled like a basic type. -/
theorem text_not_mem_cNames {generated : Variable}
    (isGenerated : generated.isGenerated = true) :
    generated.text ∉ BasicCode.cNames := by
  have noRegister : ∀ name ∈ BasicCode.cNames,
      Parameters.looksLikeRegister name = false := by decide +kernel
  have noTemporary : ∀ name ∈ BasicCode.cNames,
      Parameters.looksLikeTemporary name = false := by decide +kernel
  have noExpansion : ∀ name ∈ BasicCode.cNames,
      name.toList[1]?.any Char.isDigit = false := by decide +kernel
  intro member
  cases generated with
  | register owner number =>
      cases owner with
      | function =>
          have looks := noRegister _ member
          rw [Parameters.looksLikeRegister_register] at looks
          cases looks
      | expansion expansion =>
          have second := noExpansion _ member
          rw [toList_expansion_register] at second
          cases numeral : Nat.toDigits 10 expansion with
          | nil => exact Nat.toDigits_ne_nil numeral
          | cons digit digits =>
              rw [numeral] at second
              have isDigit := Nat.isDigit_of_mem_toDigits (b := 10) (by decide)
                (by decide) (numeral ▸ List.mem_cons_self)
              cases isDigit.symm.trans second
  | result callee =>
      have looks := noTemporary _ member
      rw [Parameters.looksLikeTemporary_result] at looks
      cases looks
  | param name => cases isGenerated

end C.Variable

end CBackend
