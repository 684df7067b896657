import CBackend.Description.Basic
import CBackend.Proofs.TypeStore.Growth

/-!
# What a description means in a store

A description is written with names, and a store consists of numbered types.
A term means a number if the type of that number has the structure of the
term, down to its names.  A mnemonic means its basic type even if a struct,
trait or alias has the same name.

Types keep their numbers and names while a store grows, so what a term means
it goes on to mean.
-/

namespace CBackend

namespace BasicCode

theorem ofMnemonic?_spelled {name : String} {code : BasicCode}
    (found : ofMnemonic? name = some code) : ∃ cName, (code, name, cName) ∈ spellings := by
  obtain ⟨⟨first, short, cName⟩, isFound, same⟩ := Option.map_eq_some_iff.mp found
  have matched : short = name := by simpa using List.find?_some isFound
  cases same
  cases matched
  exact ⟨cName, List.mem_of_find?_eq_some isFound⟩

/-- Reading a mnemonic and writing it again gives the same text. -/
theorem mnemonic_ofMnemonic? {name : String} {code : BasicCode}
    (found : ofMnemonic? name = some code) : code.mnemonic = name := by
  have each : ∀ entry ∈ spellings, entry.1.mnemonic = entry.2.1 := by decide
  obtain ⟨cName, member⟩ := ofMnemonic?_spelled found
  exact each _ member

end BasicCode

namespace TypeStore

/-- A mnemonic stands for its basic type, and any other name for the type
that has it. -/
def NameMeans (store : TypeStore) (name : String) (number : TypeNumber) : Prop :=
  match BasicCode.ofMnemonic? name with
  | some code => store.shapeAt number = .ok (.basic code)
  | none => store.Named name number

theorem NameMeans.grow {store next : TypeStore} (grows : store.Grows next) {name : String}
    {number : TypeNumber} (means : store.NameMeans name number) :
    next.NameMeans name number := by
  unfold NameMeans at means ⊢
  split at means
  · exact grows.keeps means rfl
  · exact grows.named means

theorem NameMeans.exists {store : TypeStore} {name : String} {number : TypeNumber}
    (means : store.NameMeans name number) : number < store.size := by
  unfold NameMeans at means
  split at means
  · exact lt_of_shapeAt means
  · obtain ⟨_, isShape, _⟩ := means
    exact lt_of_shapeAt isShape

end TypeStore

namespace Description

mutual

def TypeTerm.Means (store : TypeStore) : TypeTerm → TypeNumber → Prop
  | .named name, number => store.NameMeans name number
  | .pointer mode pointee, number =>
    ∃ inner, store.shapeAt number = .ok (.pointer mode inner) ∧ pointee.Means store inner
  | .array element capacity, number =>
    ∃ inner, store.shapeAt number = .ok (.array inner capacity) ∧ element.Means store inner
  | .function signature, number =>
    ∃ type, store.shapeAt number = .ok (.function type) ∧ signature.Means store type

def FieldTerm.Means (store : TypeStore) : FieldTerm → Field → Prop
  | ⟨name, type⟩, field => field.name = name ∧ type.Means store field.type

def SignatureTerm.Means (store : TypeStore) : SignatureTerm → FunctionType → Prop
  | ⟨params, results⟩, type =>
    fieldsMean store params type.params ∧ fieldsMean store results type.results

/-- Terms and fields correspond one to one. -/
def fieldsMean (store : TypeStore) : List FieldTerm → List Field → Prop
  | [], fields => fields = []
  | term :: terms, fields =>
    ∃ field later, fields = field :: later ∧ term.Means store field ∧
      fieldsMean store terms later

end

theorem fieldsMean_iff {store : TypeStore} {terms : List FieldTerm} {fields : List Field} :
    fieldsMean store terms fields ↔ List.Forall₂ (FieldTerm.Means store) terms fields := by
  induction terms generalizing fields with
  | nil => rw [fieldsMean, List.forall₂_nil_left_iff]
  | cons term terms induction =>
      rw [fieldsMean, List.forall₂_cons_left_iff]
      constructor
      · intro means
        obtain ⟨field, later, same, first, others⟩ := means
        exact ⟨field, later, first, induction.mp others, same⟩
      · intro related
        obtain ⟨field, later, first, others, same⟩ := related
        exact ⟨field, later, same, first, induction.mpr others⟩

section Growth

variable {store next : TypeStore}

mutual

theorem TypeTerm.Means.grow (grows : store.Grows next) (term : TypeTerm)
    {number : TypeNumber} (means : term.Means store number) : term.Means next number := by
  cases term with
  | named name =>
      rw [TypeTerm.Means] at means ⊢
      exact means.grow grows
  | pointer mode pointee =>
      rw [TypeTerm.Means] at means ⊢
      obtain ⟨inner, isShape, innerMeans⟩ := means
      exact ⟨inner, grows.keeps isShape rfl, TypeTerm.Means.grow grows pointee innerMeans⟩
  | array element capacity =>
      rw [TypeTerm.Means] at means ⊢
      obtain ⟨inner, isShape, innerMeans⟩ := means
      exact ⟨inner, grows.keeps isShape rfl, TypeTerm.Means.grow grows element innerMeans⟩
  | function signature =>
      rw [TypeTerm.Means] at means ⊢
      obtain ⟨type, isShape, typeMeans⟩ := means
      exact ⟨type, grows.keeps isShape rfl, SignatureTerm.Means.grow grows signature typeMeans⟩

theorem FieldTerm.Means.grow (grows : store.Grows next) (term : FieldTerm) {field : Field}
    (means : term.Means store field) : term.Means next field := by
  obtain ⟨name, type⟩ := term
  rw [FieldTerm.Means] at means ⊢
  exact ⟨means.1, TypeTerm.Means.grow grows type means.2⟩

theorem SignatureTerm.Means.grow (grows : store.Grows next) (term : SignatureTerm)
    {type : FunctionType} (means : term.Means store type) : term.Means next type := by
  obtain ⟨params, results⟩ := term
  rw [SignatureTerm.Means] at means ⊢
  exact ⟨fieldsMean.grow grows params means.1, fieldsMean.grow grows results means.2⟩

theorem fieldsMean.grow (grows : store.Grows next) (terms : List FieldTerm)
    {fields : List Field} (means : fieldsMean store terms fields) :
    fieldsMean next terms fields := by
  cases terms with
  | nil => exact means
  | cons term terms =>
      rw [fieldsMean] at means ⊢
      obtain ⟨field, later, same, first, others⟩ := means
      exact ⟨field, later, same, FieldTerm.Means.grow grows term first,
        fieldsMean.grow grows terms others⟩

end

end Growth

theorem TypeTerm.Means.exists {store : TypeStore} {term : TypeTerm} {number : TypeNumber}
    (means : term.Means store number) : number < store.size := by
  cases term with
  | named name =>
      rw [TypeTerm.Means] at means
      exact means.exists
  | pointer mode pointee =>
      rw [TypeTerm.Means] at means
      obtain ⟨_, isShape, _⟩ := means
      exact TypeStore.lt_of_shapeAt isShape
  | array element capacity =>
      rw [TypeTerm.Means] at means
      obtain ⟨_, isShape, _⟩ := means
      exact TypeStore.lt_of_shapeAt isShape
  | function signature =>
      rw [TypeTerm.Means] at means
      obtain ⟨_, isShape, _⟩ := means
      exact TypeStore.lt_of_shapeAt isShape

theorem fieldsMean.exist {store : TypeStore} {terms : List FieldTerm} {fields : List Field}
    (means : fieldsMean store terms fields) : ∀ field ∈ fields, field.type < store.size := by
  intro field member
  obtain ⟨⟨name, type⟩, _, fieldMeans⟩ :=
    Success.related_of_mem (fieldsMean_iff.mp means).flip field member
  change FieldTerm.Means store ⟨name, type⟩ field at fieldMeans
  rw [FieldTerm.Means] at fieldMeans
  exact fieldMeans.2.exists

theorem SignatureTerm.Means.exists {store : TypeStore} {term : SignatureTerm}
    {type : FunctionType} (means : term.Means store type) :
    ∀ mentioned ∈ type.mentions, mentioned < store.size := by
  obtain ⟨params, results⟩ := term
  rw [SignatureTerm.Means] at means
  intro mentioned member
  obtain ⟨field, isField, same⟩ := List.mem_map.mp member
  rw [← same]
  rcases List.mem_append.mp isField with isParam | isResult
  · exact means.1.exist field isParam
  · exact means.2.exist field isResult

end Description

end CBackend
