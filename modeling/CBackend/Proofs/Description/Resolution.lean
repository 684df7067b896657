import CBackend.Description.Build
import CBackend.Proofs.Description.Meaning

/-!
# Resolving terms

Resolving a term only puts types without a name at the end of the store.  It
succeeds exactly if all names in the term are known, and what it returns is
what the term means.  Otherwise one of the unknown names is reported.

`Outcome` says this of one run.  It has one rule for each way of composing
computations, so that terms, signatures and bodies are treated alike.
-/

namespace CBackend

namespace Shape

/-- A type that is written where it is used. -/
def Anonymous : Shape → Prop
  | .basic code => ∃ name, BasicCode.ofMnemonic? name = some code
  | .pointer .. | .array .. | .function _ => True
  | .struct .. | .trait .. | .aliasOf .. => False

theorem Anonymous.name?_eq_none {shape : Shape} (anonymous : shape.Anonymous) :
    shape.name? = none := by
  cases shape with
  | struct _ _ _ => cases anonymous
  | trait _ _ => cases anonymous
  | aliasOf _ _ => cases anonymous
  | basic _ => rfl
  | pointer _ _ => rfl
  | array _ _ => rfl
  | function _ => rfl

end Shape

namespace TypeStore

/-- A name is a mnemonic or belongs to a type of the store. -/
def Knows (store : TypeStore) (name : String) : Prop :=
  (BasicCode.ofMnemonic? name).isSome ∨ name ∈ store.names

/-- The other store has further types without a name at its end. -/
def Pads (store next : TypeStore) : Prop :=
  ∃ added, next = { store with shapes := store.shapes ++ added } ∧
    ∀ shape ∈ added, shape.Anonymous

namespace Pads

variable {store between next : TypeStore}

theorem refl (store : TypeStore) : store.Pads store := by
  refine ⟨[], ?_, nofun⟩
  rw [List.append_nil]

theorem trans (first : store.Pads between) (second : between.Pads next) :
    store.Pads next := by
  obtain ⟨added, rfl, anonymous⟩ := first
  obtain ⟨more, rfl, moreAnonymous⟩ := second
  refine ⟨added ++ more, ?_, ?_⟩
  · simp
  · intro shape member
    rcases List.mem_append.mp member with early | late
    · exact anonymous shape early
    · exact moreAnonymous shape late

theorem append {shape : Shape} (anonymous : shape.Anonymous) :
    store.Pads (store.append shape).2 := by
  refine ⟨[shape], rfl, ?_⟩
  intro other member
  rw [List.mem_singleton.mp member]
  exact anonymous

theorem internBasic {name : String} {code : BasicCode}
    (spelled : BasicCode.ofMnemonic? name = some code) :
    store.Pads (store.internBasic code).2 := by
  unfold TypeStore.internBasic
  split
  · exact refl store
  · apply append
    exact ⟨name, spelled⟩

theorem grows (pads : store.Pads next) : store.Grows next := by
  obtain ⟨added, rfl, _⟩ := pads
  exact grows_of_append rfl rfl

theorem names_eq (pads : store.Pads next) : next.names = store.names := by
  obtain ⟨added, rfl, anonymous⟩ := pads
  have nameless : added.filterMap Shape.name? = [] := by
    apply List.filterMap_eq_nil_iff.mpr
    intro shape member
    exact (anonymous shape member).name?_eq_none
  rw [names, names, List.filterMap_append, nameless, List.append_nil]

theorem knows_iff (pads : store.Pads next) (name : String) :
    next.Knows name ↔ store.Knows name := by
  rw [Knows, Knows, pads.names_eq]

end Pads

section Insertion

variable {store : TypeStore}

theorem internBasic_shapeAt (code : BasicCode) :
    (store.internBasic code).2.shapeAt (store.internBasic code).1 = .ok (.basic code) := by
  unfold internBasic
  split
  · rename_i number found
    obtain ⟨inside, same, _⟩ := List.findIdx?_eq_some_iff_getElem.mp found
    rw [shapeAt_ok_iff, List.getElem?_eq_getElem inside]
    simpa using same
  · exact shapeAt_append.mpr (.inr ⟨rfl, rfl⟩)

/-- Apart from structs and basic types, a type whose mentions exist goes to
the end of the store. -/
theorem insert_eq_appendNamed {shape : Shape} (noStruct : shape.isStruct = false)
    (noBasic : ∀ code, shape ≠ .basic code)
    (present : ∀ mentioned ∈ shape.mentions, mentioned < store.size) :
    store.insert shape = store.appendNamed shape := by
  unfold insert
  rw [forM_present_iff.mpr present]
  cases shape with
  | struct _ _ _ => cases noStruct
  | basic code => exact absurd rfl (noBasic code)
  | pointer _ _ => rfl
  | array _ _ => rfl
  | function _ => rfl
  | trait _ _ => rfl
  | aliasOf _ _ => rfl

end Insertion

end TypeStore

namespace Description

mutual

/-- The names in a term, at any depth. -/
def TypeTerm.references : TypeTerm → List String
  | .named name => [name]
  | .pointer _ pointee => pointee.references
  | .array element _ => element.references
  | .function signature => signature.references

def FieldTerm.references : FieldTerm → List String
  | ⟨_, type⟩ => type.references

def SignatureTerm.references : SignatureTerm → List String
  | ⟨params, results⟩ => fieldReferences params ++ fieldReferences results

def fieldReferences : List FieldTerm → List String
  | [] => []
  | field :: later => field.references ++ fieldReferences later

end

def PrototypeTerm.references (prototype : PrototypeTerm) : List String :=
  prototype.signature.references

def PrototypeTerm.Means (store : TypeStore) (term : PrototypeTerm) (prototype : Prototype) :
    Prop :=
  prototype.name = term.name ∧ term.signature.Means store prototype.type

theorem run_get (store : TypeStore) : (get : Resolve TypeStore) store = .ok (store, store) :=
  rfl

theorem insertType_run (shape : Shape) (store : TypeStore) :
    insertType shape store = (store.insert shape).mapError .store := by
  unfold insertType
  rw [Success.run_bind_ok (run_get store)]
  cases store.insert shape with
  | ok result => rfl
  | error cause => rfl

theorem findType_run (name : String) (store : TypeStore) :
    findType name store =
      match store.find? name with
      | some number => .ok (number, store)
      | none => .error (.noSuchType name) := by
  unfold findType
  rw [Success.run_bind_ok (run_get store)]
  cases store.find? name with
  | some number => rfl
  | none => rfl

/-- What comes of resolving something that contains `names`: a store with
further anonymous types and a value of the given meaning, if all names are
known, and otherwise the report of an unknown one. -/
def Outcome (store : TypeStore) (names : List String) (means : TypeStore → α → Prop) :
    Except DescriptionError (α × TypeStore) → Prop
  | .ok (value, next) => store.Pads next ∧ next.Ordered ∧
      (∀ name ∈ names, store.Knows name) ∧ means next value
  | .error cause => ∃ name ∈ names, ¬ store.Knows name ∧ cause = .noSuchType name

namespace Outcome

variable {store : TypeStore} {names more : List String}

theorem pure {means : TypeStore → α → Prop} {value : α} (ordered : store.Ordered)
    (meaning : means store value) :
    Outcome store [] means ((Pure.pure value : Resolve α) store) :=
  ⟨.refl store, ordered, nofun, meaning⟩

theorem imp {means other : TypeStore → α → Prop}
    {result : Except DescriptionError (α × TypeStore)}
    (outcome : Outcome store names means result)
    (implies : ∀ next value, store.Pads next → means next value → other next value) :
    Outcome store names other result := by
  match result with
  | .error cause => exact outcome
  | .ok (value, next) =>
      obtain ⟨pads, ordered, known, meaning⟩ := outcome
      exact ⟨pads, ordered, known, implies next value pads meaning⟩

/-- One computation after the other: names known before the second are the
names known before the first. -/
theorem bind {step : Resolve α} {next : α → Resolve β} {means : TypeStore → α → Prop}
    {final : TypeStore → β → Prop} (first : Outcome store names means (step store))
    (second : ∀ value between, store.Pads between → between.Ordered →
      means between value → Outcome between more final (next value between)) :
    Outcome store (names ++ more) final ((step >>= next) store) := by
  cases ran : step store with
  | error cause =>
      rw [Success.run_bind_error ran]
      rw [ran] at first
      obtain ⟨name, member, unknown, same⟩ := first
      exact ⟨name, List.mem_append_left _ member, unknown, same⟩
  | ok result =>
      obtain ⟨value, between⟩ := result
      rw [Success.run_bind_ok ran]
      rw [ran] at first
      obtain ⟨pads, ordered, known, meaning⟩ := first
      have outcome := second value between pads ordered meaning
      cases last : next value between with
      | error cause =>
          rw [last] at outcome
          obtain ⟨name, member, unknown, same⟩ := outcome
          refine ⟨name, List.mem_append_right _ member, ?_, same⟩
          rwa [pads.knows_iff] at unknown
      | ok result =>
          obtain ⟨final, after⟩ := result
          rw [last] at outcome
          obtain ⟨morePads, moreOrdered, moreKnown, moreMeaning⟩ := outcome
          refine ⟨pads.trans morePads, moreOrdered, ?_, moreMeaning⟩
          intro name member
          rcases List.mem_append.mp member with early | late
          · exact known name early
          · exact (pads.knows_iff name).mp (moreKnown name late)

/-- A result that is only put into another form. -/
theorem map {step : Resolve α} {form : α → β} {means : TypeStore → α → Prop}
    {final : TypeStore → β → Prop} (first : Outcome store names means (step store))
    (implies : ∀ next value, store.Pads next → means next value → final next (form value)) :
    Outcome store names final ((step >>= fun value => Pure.pure (form value)) store) := by
  rw [← List.append_nil names]
  apply bind first
  intro value between pads ordered meaning
  exact pure ordered (implies between value pads meaning)

/-- A new type without a name. -/
theorem insertType {shape : Shape} {means : TypeStore → TypeNumber → Prop}
    (ordered : store.Ordered) (anonymous : shape.Anonymous)
    (noBasic : ∀ code, shape ≠ .basic code)
    (present : ∀ mentioned ∈ shape.mentions, mentioned < store.size)
    (meaning : ∀ next number, store.Pads next → next.shapeAt number = .ok shape →
      means next number) :
    Outcome store [] means (Description.insertType shape store) := by
  have nameless := anonymous.name?_eq_none
  have noStruct : shape.isStruct = false := by
    cases shape with
    | struct _ _ _ => cases anonymous
    | trait _ _ => cases anonymous
    | aliasOf _ _ => cases anonymous
    | basic _ => rfl
    | pointer _ _ => rfl
    | array _ _ => rfl
    | function _ => rfl
  have inserts : store.insert shape = .ok (store.append shape) := by
    rw [TypeStore.insert_eq_appendNamed noStruct noBasic present, TypeStore.appendNamed, nameless]
  rw [insertType_run, inserts]
  refine ⟨.append anonymous, ordered.append present, ?_, ?_⟩
  · intro name member
    cases member
  · apply meaning _ _ (.append anonymous)
    exact TypeStore.shapeAt_append.mpr (.inr ⟨rfl, rfl⟩)

theorem resolveName (ordered : store.Ordered) (distinct : store.names.Nodup) (name : String) :
    Outcome store [name] (fun next number => next.NameMeans name number)
      (Description.resolveName name store) := by
  unfold Description.resolveName
  cases spelled : BasicCode.ofMnemonic? name with
  | some code =>
      refine ⟨.internBasic spelled, ordered.internBasic code, ?_, ?_⟩
      · intro other member
        rw [List.mem_singleton.mp member]
        exact .inl (by rw [spelled]; rfl)
      · unfold TypeStore.NameMeans
        rw [spelled]
        exact TypeStore.internBasic_shapeAt code
  | none =>
      dsimp only
      rw [findType_run]
      cases found : store.find? name with
      | none =>
          refine ⟨name, List.mem_cons_self, ?_, rfl⟩
          intro known
          rcases known with mnemonic | member
          · rw [spelled] at mnemonic
            cases mnemonic
          · exact TypeStore.find?_none_iff.mp found member
      | some number =>
          have named := (TypeStore.find?_eq_some_iff distinct).mp found
          refine ⟨.refl store, ordered, ?_, ?_⟩
          · intro other member
            rw [List.mem_singleton.mp member]
            exact .inr named.mem_names
          · unfold TypeStore.NameMeans
            rw [spelled]
            exact named

/-- Several things of one kind, each with its own names and meaning. -/
theorem mapM {action : α → Resolve β} {references : α → List String}
    {means : TypeStore → α → β → Prop}
    (grow : ∀ {store next : TypeStore}, store.Grows next →
      ∀ item value, means store item value → means next item value)
    (each : ∀ {store : TypeStore}, store.Ordered → store.names.Nodup →
      ∀ item, Outcome store (references item) (fun next => means next item) (action item store))
    (ordered : store.Ordered) (distinct : store.names.Nodup) (items : List α) :
    Outcome store (items.flatMap references) (fun next => List.Forall₂ (means next) items)
      (items.mapM action store) := by
  induction items generalizing store with
  | nil => exact pure ordered .nil
  | cons item items induction =>
      rw [List.mapM_cons, List.flatMap_cons]
      apply bind (each ordered distinct item)
      intro first between pads betweenOrdered firstMeans
      have betweenDistinct : between.names.Nodup := by
        rw [pads.names_eq]
        exact distinct
      apply map (induction betweenOrdered betweenDistinct)
      intro next others morePads othersMean
      exact .cons (grow morePads.grows item first firstMeans) othersMean

end Outcome

mutual

theorem TypeTerm.resolve_outcome (term : TypeTerm) {store : TypeStore}
    (ordered : store.Ordered) (distinct : store.names.Nodup) :
    Outcome store term.references (fun next number => term.Means next number)
      (term.resolve store) := by
  cases term with
  | named name =>
      rw [TypeTerm.resolve, TypeTerm.references]
      apply (Outcome.resolveName ordered distinct name).imp
      intro next number _ means
      rwa [TypeTerm.Means]
  | pointer mode pointee =>
      rw [TypeTerm.resolve, TypeTerm.references, ← List.append_nil pointee.references]
      apply Outcome.bind (TypeTerm.resolve_outcome pointee ordered distinct)
      intro inner between _ betweenOrdered means
      apply Outcome.insertType betweenOrdered
      · trivial
      · exact nofun
      · intro mentioned member
        rw [List.mem_singleton.mp member]
        exact means.exists
      · intro next number pads isShape
        rw [TypeTerm.Means]
        exact ⟨inner, isShape, means.grow pads.grows pointee⟩
  | array element capacity =>
      rw [TypeTerm.resolve, TypeTerm.references, ← List.append_nil element.references]
      apply Outcome.bind (TypeTerm.resolve_outcome element ordered distinct)
      intro inner between _ betweenOrdered means
      apply Outcome.insertType betweenOrdered
      · trivial
      · exact nofun
      · intro mentioned member
        rw [List.mem_singleton.mp member]
        exact means.exists
      · intro next number pads isShape
        rw [TypeTerm.Means]
        exact ⟨inner, isShape, means.grow pads.grows element⟩
  | function signature =>
      rw [TypeTerm.resolve, TypeTerm.references, ← List.append_nil signature.references]
      apply Outcome.bind (SignatureTerm.resolve_outcome signature ordered distinct)
      intro type between _ betweenOrdered means
      apply Outcome.insertType betweenOrdered
      · trivial
      · exact nofun
      · exact means.exists
      · intro next number pads isShape
        rw [TypeTerm.Means]
        exact ⟨type, isShape, means.grow pads.grows signature⟩

theorem FieldTerm.resolve_outcome (term : FieldTerm) {store : TypeStore}
    (ordered : store.Ordered) (distinct : store.names.Nodup) :
    Outcome store term.references (fun next field => term.Means next field)
      (term.resolve store) := by
  obtain ⟨name, type⟩ := term
  rw [FieldTerm.resolve, FieldTerm.references]
  apply Outcome.map (TypeTerm.resolve_outcome type ordered distinct)
  intro next number _ means
  rw [FieldTerm.Means]
  exact ⟨rfl, means⟩

theorem SignatureTerm.resolve_outcome (term : SignatureTerm) {store : TypeStore}
    (ordered : store.Ordered) (distinct : store.names.Nodup) :
    Outcome store term.references (fun next type => term.Means next type)
      (term.resolve store) := by
  obtain ⟨params, results⟩ := term
  rw [SignatureTerm.resolve, SignatureTerm.references]
  apply Outcome.bind (resolveFields_outcome params ordered distinct)
  intro inputs between pads betweenOrdered inputsMean
  have betweenDistinct : between.names.Nodup := by
    rw [pads.names_eq]
    exact distinct
  apply Outcome.map (resolveFields_outcome results betweenOrdered betweenDistinct)
  intro next outputs morePads outputsMean
  rw [SignatureTerm.Means]
  exact ⟨inputsMean.grow morePads.grows params, outputsMean⟩

theorem resolveFields_outcome (terms : List FieldTerm) {store : TypeStore}
    (ordered : store.Ordered) (distinct : store.names.Nodup) :
    Outcome store (fieldReferences terms) (fun next fields => fieldsMean next terms fields)
      (resolveFields terms store) := by
  cases terms with
  | nil => exact Outcome.pure ordered rfl
  | cons term terms =>
      rw [resolveFields, fieldReferences]
      apply Outcome.bind (FieldTerm.resolve_outcome term ordered distinct)
      intro field between pads betweenOrdered means
      have betweenDistinct : between.names.Nodup := by
        rw [pads.names_eq]
        exact distinct
      apply Outcome.map (resolveFields_outcome terms betweenOrdered betweenDistinct)
      intro next fields morePads fieldsMeans
      rw [fieldsMean]
      exact ⟨field, fields, rfl, means.grow morePads.grows term, fieldsMeans⟩

end

theorem PrototypeTerm.Means.grow {store next : TypeStore} (grows : store.Grows next)
    (term : PrototypeTerm) (prototype : Prototype) (means : term.Means store prototype) :
    term.Means next prototype :=
  ⟨means.1, means.2.grow grows term.signature⟩

theorem PrototypeTerm.resolve_outcome {store : TypeStore} (ordered : store.Ordered)
    (distinct : store.names.Nodup) (term : PrototypeTerm) :
    Outcome store term.references (fun next prototype => term.Means next prototype)
      (term.resolve store) := by
  apply Outcome.map (term.signature.resolve_outcome ordered distinct)
  intro next type _ means
  exact ⟨rfl, means⟩

end Description

end CBackend
