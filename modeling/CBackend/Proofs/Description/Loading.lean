import CBackend.Proofs.Description.Representation

/-!
# Loading types

The types of a description are built in two passes.  The first announces all
structs, the second gives them their fields and inserts traits and aliases.
A pass goes wrong only if the entries are not well formed, and else the store
holds the entries.

The search for a walk back to a struct sees only the fields added so far.
That is enough: a walk that it finds is one between entries, and when all
fields are there the store as a whole has no cycle.

`Advance` keeps what one step does to the store, for properties that are not
about entries.
-/

namespace CBackend

/-- Failures that tell what is wrong with a description: a name that is not
known or given twice, or a struct that would hold itself. -/
def DescriptionError.InDescription : DescriptionError → Prop
  | .noSuchType _ | .noSuchCallee _ | .repeatedCallee _ => True
  | .store (.nameTaken _) | .store (.fieldTaken ..) | .store (.selfEmbedding ..) => True
  | .store (.missing _) | .store (.notStruct ..) | .program _ | .unreadable .. | .malformed => False

namespace Description

open Relation (ReflTransGen TransGen)

/-- How a computation ends: with a value and a state, or in failure, for a
cause that lies in the description. -/
def Ends (success : α → σ → Prop) (failure : Prop) : Except DescriptionError (α × σ) → Prop
  | .ok (value, state) => success value state
  | .error cause => cause.InDescription ∧ failure

namespace Ends

variable {failure : Prop} {state : σ}

theorem imp {success final : α → σ → Prop} {cause : Prop}
    {result : Except DescriptionError (α × σ)}
    (ends : Ends success failure result)
    (implies : ∀ value next, success value next → final value next)
    (blames : failure → cause) : Ends final cause result := by
  match result with
  | .ok (value, next) => exact implies value next ends
  | .error _ => exact ⟨ends.1, blames ends.2⟩

theorem bind {step : StateT σ (Except DescriptionError) α}
    {next : α → StateT σ (Except DescriptionError) β}
    {success : α → σ → Prop} {final : β → σ → Prop} (first : Ends success failure (step state))
    (second : ∀ value between, success value between →
      Ends final failure (next value between)) :
    Ends final failure ((step >>= next) state) := by
  cases ran : step state with
  | error cause =>
      rw [Success.run_bind_error ran]
      rw [ran] at first
      exact first
  | ok result =>
      obtain ⟨value, between⟩ := result
      rw [Success.run_bind_ok ran]
      rw [ran] at first
      exact second value between first

end Ends

theorem Outcome.ends {store : TypeStore} {names : List String} {means : TypeStore → α → Prop}
    {result : Except DescriptionError (α × TypeStore)}
    (outcome : Outcome store names means result) :
    Ends (fun value next => store.Pads next ∧ next.Ordered ∧
        (∀ name ∈ names, store.Knows name) ∧ means next value)
      (∃ name ∈ names, ¬ store.Knows name) result := by
  match result with
  | .ok (value, next) => exact outcome
  | .error cause =>
      obtain ⟨name, member, unknown, rfl⟩ := outcome
      exact ⟨trivial, name, member, unknown⟩

/-- One step of the second pass, when the structs before the number have got
all their fields. -/
inductive Advance : Nat × TypeStore → Nat × TypeStore → Prop where
  | pad {filled : Nat} {store next : TypeStore} (pads : store.Pads next)
      (ordered : next.Ordered) : Advance (filled, store) (filled, next)
  | declare {filled : Nat} {store : TypeStore} {shape : Shape} {name : String}
      (noStruct : shape.isStruct = false) (named : shape.name? = some name)
      (ordered : (store.append shape).2.Ordered) :
      Advance (filled, store) (filled, (store.append shape).2)
  | extend {filled : Nat} {store next : TypeStore} {field : Field}
      (success : store.extend filled field = .ok next) :
      Advance (filled, store) (filled, next)
  | finish {filled : Nat} {store : TypeStore} : Advance (filled, store) (filled + 1, store)

def structsOf (entries : List TypeEntry) : List TypeEntry := entries.filter TypeEntry.isStruct

/-- The traits and aliases. -/
def othersOf (entries : List TypeEntry) : List TypeEntry := entries.filter (!·.isStruct)

/-- The structs as they are announced, without fields. -/
def announced (entries : List TypeEntry) : List TypeEntry :=
  (structsOf entries).map fun entry => .struct entry.name []

theorem structsOf_append (first second : List TypeEntry) :
    structsOf (first ++ second) = structsOf first ++ structsOf second :=
  List.filter_append first second

theorem othersOf_append (first second : List TypeEntry) :
    othersOf (first ++ second) = othersOf first ++ othersOf second :=
  List.filter_append first second

theorem structsOf_struct (name : String) (fields : List FieldTerm) (rest : List TypeEntry) :
    structsOf (.struct name fields :: rest) = .struct name fields :: structsOf rest := rfl

theorem othersOf_struct (name : String) (fields : List FieldTerm) (rest : List TypeEntry) :
    othersOf (.struct name fields :: rest) = othersOf rest := rfl

theorem parts_perm (entries : List TypeEntry) :
    (structsOf entries ++ othersOf entries).Perm entries :=
  List.filter_append_perm TypeEntry.isStruct entries

theorem mem_parts {entries : List TypeEntry} {entry : TypeEntry} :
    entry ∈ structsOf entries ++ othersOf entries ↔ entry ∈ entries :=
  (parts_perm entries).mem_iff

theorem mem_structsOf {entries : List TypeEntry} {entry : TypeEntry} :
    entry ∈ structsOf entries ↔ entry ∈ entries ∧ entry.isStruct = true :=
  List.mem_filter

theorem mem_othersOf {entries : List TypeEntry} {entry : TypeEntry} :
    entry ∈ othersOf entries ↔ entry ∈ entries ∧ entry.isStruct = false := by
  simp [othersOf]

theorem announced_names (entries : List TypeEntry) :
    (announced entries).map TypeEntry.name = (structsOf entries).map TypeEntry.name := by
  rw [announced, List.map_map]
  rfl

/-- The names in use when the entries `done` have been built. -/
theorem mem_namesInUse {done rest : List TypeEntry} {name : String} :
    name ∈ (structsOf done ++ announced rest ++ othersOf done).map TypeEntry.name ↔
      (∃ entry ∈ done ++ rest, entry.isStruct = true ∧ entry.name = name) ∨
        ∃ entry ∈ done, entry.isStruct = false ∧ entry.name = name := by
  rw [List.map_append, List.map_append, announced_names]
  simp only [List.mem_append, List.mem_map, mem_structsOf, mem_othersOf, and_assoc,
    or_and_right, exists_or]

/-- Each entry appears in the larger list, perhaps with more in it. -/
def Within (entries larger : List TypeEntry) : Prop :=
  ∀ entry ∈ entries, ∃ whole ∈ larger, whole.name = entry.name ∧
    entry.embedded ⊆ whole.embedded

theorem Within.embeds {entries larger : List TypeEntry} (within : Within entries larger)
    {outer inner : String} (embeds : Embeds entries outer inner) :
    Embeds larger outer inner := by
  obtain ⟨entry, member, named, embedded⟩ := embeds
  obtain ⟨whole, isWhole, sameName, more⟩ := within entry member
  exact ⟨whole, isWhole, sameName.trans named, more embedded⟩

/-- What is built while a struct gets its fields lies within all entries. -/
theorem within_types {done rest : List TypeEntry} {name : String} {fields : List FieldTerm} :
    Within (structsOf done ++ .struct name fields :: announced rest ++ othersOf done)
      (done ++ .struct name fields :: rest) := by
  intro entry member
  simp only [List.mem_append, List.mem_cons, mem_structsOf, mem_othersOf] at member
  rcases member with (⟨earlier, _⟩ | here | later) | ⟨earlier, _⟩
  · exact ⟨entry, List.mem_append_left _ earlier, rfl, List.Subset.refl _⟩
  · exact ⟨entry, by simp [here], rfl, List.Subset.refl _⟩
  · obtain ⟨whole, isWhole, rfl⟩ := List.mem_map.mp later
    refine ⟨whole, ?_, rfl, List.nil_subset _⟩
    exact List.mem_append_right _ (List.mem_cons_of_mem _ (mem_structsOf.mp isWhole).1)
  · exact ⟨entry, List.mem_append_left _ earlier, rfl, List.Subset.refl _⟩

theorem extendStruct_run (number : TypeNumber) (field : Field) (store : TypeStore) :
    extendStruct number field store =
      ((store.extend number field).mapError .store).map ((), ·) := by
  unfold extendStruct
  rw [Success.run_bind_ok (run_get store)]
  cases store.extend number field with
  | ok next => rfl
  | error cause => rfl

section Fields

variable {store : TypeStore} {before after others : List TypeEntry} {name : String}
  {terms : List FieldTerm}

/-- A field whose type leads back to the struct closes a cycle of entries. -/
theorem Holds.cycle (holds : Holds store (before ++ .struct name terms :: after) others)
    {term : FieldTerm} {field : Field} (means : term.Means store field)
    (walk : ReflTransGen store.Embeds field.type before.length) (more : List FieldTerm) :
    TransGen (Embeds (before ++ .struct name (terms ++ term :: more) :: after ++ others))
      name name := by
  obtain ⟨shape, isShape, shapeMeans⟩ := holds.structAt
  obtain ⟨source, sourceNamed, reaches⟩ :=
    holds.walk_named ⟨shape, isShape, shapeMeans.name?_eq⟩ walk
  have within : Within (before ++ .struct name terms :: after ++ others)
      (before ++ .struct name (terms ++ term :: more) :: after ++ others) := by
    intro entry member
    simp only [List.mem_append, List.mem_cons] at member
    rcases member with (inBefore | here | inAfter) | inOthers
    · exact ⟨entry, by simp [inBefore], rfl, List.Subset.refl _⟩
    · refine ⟨.struct name (terms ++ term :: more), by simp, by rw [here]; rfl, ?_⟩
      rw [here, TypeEntry.embedded, TypeEntry.embedded, List.filterMap_append]
      exact List.subset_append_left _ _
    · exact ⟨entry, by simp [inAfter], rfl, List.Subset.refl _⟩
    · exact ⟨entry, by simp [inOthers], rfl, List.Subset.refl _⟩
  have closes : Embeds (before ++ .struct name (terms ++ term :: more) :: after ++ others)
      name source := by
    refine ⟨.struct name (terms ++ term :: more), by simp, rfl, ?_⟩
    apply List.mem_filterMap.mpr
    exact ⟨term, by simp, (means.type.named_iff source).mp sourceNamed⟩
  exact TransGen.head' closes (ReflTransGen.mono (fun _ _ => within.embeds) _ _ reaches)

/-- What can be wrong with further fields of a struct. -/
def FieldsWrong (store : TypeStore) (before after others : List TypeEntry) (name : String)
    (terms fields : List FieldTerm) : Prop :=
  (∃ reference ∈ fields.flatMap FieldTerm.references, ¬ store.Knows reference) ∨
    ¬ ((terms ++ fields).map FieldTerm.name).Nodup ∨
    ∃ looped, TransGen (Embeds (before ++ .struct name (terms ++ fields) :: after ++ others))
      looped looped

/-- What further fields of a struct come to. -/
structure FieldsAdded (store : TypeStore) (before after others : List TypeEntry)
    (name : String) (terms fields : List FieldTerm) (next : TypeStore) : Prop where
  holds : Holds next (before ++ .struct name (terms ++ fields) :: after) others
  distinct : ((terms ++ fields).map FieldTerm.name).Nodup
  known : ∀ reference ∈ fields.flatMap FieldTerm.references, store.Knows reference
  steps : ReflTransGen Advance (before.length, store) (before.length, next)

theorem Holds.knows_congr {next : TypeStore} {entries more : List TypeEntry}
    (holds : Holds store entries others) (nextHolds : Holds next more others)
    (same : more.map TypeEntry.name = entries.map TypeEntry.name) (reference : String) :
    next.Knows reference ↔ store.Knows reference := by
  rw [TypeStore.Knows, TypeStore.Knows, holds.names_eq, nextHolds.names_eq, List.map_append,
    List.map_append, same]

/-- One field: it is resolved, then added. -/
theorem Holds.addField (holds : Holds store (before ++ .struct name terms :: after) others)
    (distinct : (terms.map FieldTerm.name).Nodup) (term : FieldTerm) (more : List FieldTerm) :
    Ends (fun _ next => FieldsAdded store before after others name terms [term] next)
      (FieldsWrong store before after others name terms (term :: more))
      ((do extendStruct before.length (← term.resolve) : Resolve Unit) store) := by
  have resolved := (term.resolve_outcome holds.ordered holds.distinct).ends
  have blamed : (∃ reference ∈ term.references, ¬ store.Knows reference) →
      FieldsWrong store before after others name terms (term :: more) := by
    intro unknown
    obtain ⟨reference, member, isUnknown⟩ := unknown
    refine .inl ⟨reference, ?_, isUnknown⟩
    rw [List.flatMap_cons]
    exact List.mem_append_left _ member
  apply (resolved.imp (fun _ _ facts => facts) blamed).bind
  intro field between facts
  obtain ⟨pads, ordered, known, means⟩ := facts
  have padded := holds.pad pads ordered
  obtain ⟨_, isStruct, fields, signature, rfl, fieldsMean⟩ := padded.structAt
  have sameNames := names_of_fieldsMean fieldsMean
  rw [extendStruct_run]
  rcases padded.ordered.extend_cases isStruct means.type.exists with
    ⟨fresh, next, success⟩ | ⟨wrong, cause, failure⟩
  · rw [success]
    rw [sameNames, means.name_eq] at fresh
    refine ⟨padded.extend success means, ?_, ?_, ?_⟩
    · rw [List.map_append, List.nodup_append]
      refine ⟨distinct, List.nodup_singleton _, ?_⟩
      intro old isOld new isNew same
      rw [List.map_singleton, List.mem_singleton] at isNew
      rw [same, isNew] at isOld
      exact fresh isOld
    · intro reference member
      rw [List.flatMap_singleton] at member
      exact known reference member
    · exact .tail (.single (.pad pads ordered)) (.extend success)
  · rw [failure]
    have told : (DescriptionError.store cause).InDescription := by
      rcases padded.ordered.extend_refuses isStruct means.type.exists failure with
        rfl | ⟨_, rfl⟩
      · trivial
      · trivial
    refine ⟨told, .inr ?_⟩
    rcases wrong with taken | walk
    · refine .inl ?_
      rw [sameNames, means.name_eq] at taken
      rw [List.map_append, List.nodup_append]
      intro apart
      exact apart.2.2 _ taken _ (List.mem_map_of_mem List.mem_cons_self) rfl
    · exact .inr ⟨name, padded.cycle means walk more⟩

theorem Holds.addFields (holds : Holds store (before ++ .struct name terms :: after) others)
    (distinct : (terms.map FieldTerm.name).Nodup) (fields : List FieldTerm) :
    Ends (fun _ next => FieldsAdded store before after others name terms fields next)
      (FieldsWrong store before after others name terms fields)
      (fields.forM (fun field => do
        extendStruct before.length (← field.resolve) : FieldTerm → Resolve Unit) store) := by
  induction fields generalizing store terms with
  | nil =>
      refine ⟨?_, ?_, nofun, .refl⟩
      · rw [List.append_nil]
        exact holds
      · rw [List.append_nil]
        exact distinct
  | cons term fields induction =>
      rw [List.forM]
      apply (holds.addField distinct term fields).bind
      intro _ between added
      have known := holds.knows_congr added.holds (by simp [TypeEntry.name])
      have regroup : terms ++ [term] ++ fields = terms ++ term :: fields := by simp
      apply (induction added.holds added.distinct).imp
      · intro _ next further
        refine ⟨?_, ?_, ?_, added.steps.trans further.steps⟩
        · rw [← regroup]
          exact further.holds
        · rw [← regroup]
          exact further.distinct
        · intro reference member
          rw [List.flatMap_cons] at member
          rcases List.mem_append.mp member with first | later
          · apply added.known
            rw [List.flatMap_singleton]
            exact first
          · exact (known reference).mp (further.known reference later)
      · intro wrong
        rw [FieldsWrong, regroup] at wrong
        rcases wrong with ⟨reference, member, unknown⟩ | others
        · refine .inl ⟨reference, ?_, ?_⟩
          · rw [List.flatMap_cons]
            exact List.mem_append_right _ member
          · rwa [known] at unknown
        · exact .inr others

end Fields

section Entry

variable {store : TypeStore} {types done rest : List TypeEntry}

/-- What the store holds when the entries `done` have been built and the
structs of `rest` are announced. -/
abbrev Loaded (store : TypeStore) (done rest : List TypeEntry) : Prop :=
  Holds store (structsOf done ++ announced rest) (othersOf done)

theorem Loaded.knows_iff (loaded : Loaded store done rest) (split : types = done ++ rest)
    (name : String) : store.Knows name ↔ Nameable types done name := by
  rw [TypeStore.Knows, loaded.names_eq, mem_namesInUse, Nameable, split]

/-- One entry has been built: it fits, and the store holds it too. -/
structure EntryBuilt (types done : List TypeEntry) (entry : TypeEntry) (rest : List TypeEntry)
    (store next : TypeStore) : Prop where
  loaded : Loaded next (done ++ [entry]) rest
  fits : entry.Fits types done
  steps : ReflTransGen Advance ((structsOf done).length, store)
    ((structsOf (done ++ [entry])).length, next)

theorem TypesWellFormed.knows (wellFormed : TypesWellFormed types) {entry : TypeEntry}
    (split : types = done ++ entry :: rest) (loaded : Loaded store done (entry :: rest)) :
    ∀ reference ∈ entry.references, store.Knows reference := by
  intro reference member
  apply (loaded.knows_iff split reference).mpr
  exact (wellFormed.fits done entry rest split).nameable reference member

theorem Loaded.fillStruct {name : String} {fields : List FieldTerm}
    (loaded : Loaded store done (.struct name fields :: rest))
    (split : types = done ++ .struct name fields :: rest) :
    Ends (fun _ next => EntryBuilt types done (.struct name fields) rest store next)
      (¬ TypesWellFormed types) ((TypeEntry.struct name fields).fill store) := by
  have opened : Holds store (structsOf done ++ .struct name [] :: announced rest)
      (othersOf done) := loaded
  have found : findType name store = .ok ((structsOf done).length, store) := by
    have isFound : store.find? name = some (structsOf done).length := opened.find?_struct
    rw [findType_run, isFound]
  rw [TypeEntry.fill, Success.run_bind_ok found]
  apply (opened.addFields List.nodup_nil fields).imp
  · intro _ next added
    refine ⟨?_, ⟨added.distinct, ?_⟩, ?_⟩
    · have allStructs : structsOf (done ++ [.struct name fields]) ++ announced rest =
          structsOf done ++ .struct name fields :: announced rest := by
        rw [structsOf_append, List.append_assoc]
        rfl
      have allOthers : othersOf (done ++ [.struct name fields]) = othersOf done := by
        rw [othersOf_append, othersOf_struct]
        exact List.append_nil _
      rw [Loaded, allStructs, allOthers]
      exact added.holds
    · intro reference member
      exact (loaded.knows_iff split reference).mp (added.known reference member)
    · have counted : (structsOf (done ++ [.struct name fields])).length =
          (structsOf done).length + 1 := by
        rw [structsOf_append, structsOf_struct, List.length_append]
        rfl
      rw [counted]
      exact added.steps.tail .finish
  · intro wrong wellFormed
    rcases wrong with ⟨reference, member, unknown⟩ | repeated | ⟨looped, cycle⟩
    · exact unknown (wellFormed.knows split loaded reference member)
    · exact repeated (wellFormed.fits done _ rest split).fieldsDistinct
    · apply wellFormed.acyclic looped
      rw [split]
      exact TransGen.mono (fun _ _ => within_types.embeds) _ _ cycle

theorem TypeEntry.Means.present {entry : TypeEntry} {shape : Shape}
    (means : entry.Means store shape) : ∀ mentioned ∈ shape.mentions, mentioned < store.size := by
  intro mentioned member
  cases entry with
  | struct name terms =>
      obtain ⟨fields, signature, rfl, related⟩ := means
      obtain ⟨field, isField, rfl⟩ := List.mem_map.mp member
      obtain ⟨term, _, fieldMeans⟩ := Success.related_of_mem related.flip field isField
      exact (FieldTerm.Means.type fieldMeans).exists
  | trait name terms =>
      obtain ⟨prototypes, rfl, related⟩ := means
      obtain ⟨prototype, isPrototype, mentions⟩ := List.mem_flatMap.mp member
      obtain ⟨term, _, prototypeMeans⟩ :=
        Success.related_of_mem related.flip prototype isPrototype
      exact prototypeMeans.2.exists mentioned mentions
  | aliasOf name term =>
      obtain ⟨target, rfl, targetMeans⟩ := means
      rw [List.mem_singleton.mp member]
      exact targetMeans.exists

/-- A trait or alias whose parts have been resolved is put at the end. -/
theorem insertType_run_of_means {entry : TypeEntry} {shape : Shape}
    (means : entry.Means store shape) (noStruct : entry.isStruct = false) :
    (discard (insertType shape) : Resolve Unit) store =
      ((store.appendNamed shape).mapError .store).map fun result => ((), result.2) := by
  have discarded : (discard (insertType shape) : Resolve Unit) store =
      (insertType shape store).map fun result => ((), result.2) := by
    change (insertType shape store >>= fun result => _) = _
    cases insertType shape store with
    | ok result => rfl
    | error cause => rfl
  have inserts : store.insert shape = store.appendNamed shape := by
    apply TypeStore.insert_eq_appendNamed (means.isStruct_eq.trans noStruct) _ means.present
    intro code same
    have hasName := means.name?_eq
    rw [same] at hasName
    cases hasName
  rw [discarded, insertType_run, inserts]

/-- The name of a trait or alias is not that of a struct or of an earlier
entry. -/
theorem TypesWellFormed.name_free (wellFormed : TypesWellFormed types) {entry : TypeEntry}
    (split : types = done ++ entry :: rest) (noStruct : entry.isStruct = false)
    (loaded : Loaded store done (entry :: rest)) : store.find? entry.name = none := by
  have distinct := wellFormed.namesDistinct
  rw [split, List.map_append, List.map_cons, List.nodup_middle, List.nodup_cons] at distinct
  rw [TypeStore.find?_none_iff, loaded.names_eq, mem_namesInUse]
  intro taken
  apply distinct.1
  rw [← List.map_append]
  rcases taken with ⟨other, member, isStruct, same⟩ | ⟨other, member, _, same⟩
  · have different : other ≠ entry := by
      intro equal
      rw [equal, noStruct] at isStruct
      cases isStruct
    rw [← same]
    apply List.mem_map_of_mem
    simpa [different] using member
  · rw [← same]
    exact List.mem_map_of_mem (List.mem_append_left _ member)

/-- A trait or alias is inserted if its name is free. -/
theorem Loaded.insert {entry : TypeEntry} {shape : Shape} {between : TypeStore}
    (loaded : Loaded store done (entry :: rest)) (split : types = done ++ entry :: rest)
    (noStruct : entry.isStruct = false) (pads : store.Pads between) (ordered : between.Ordered)
    (known : ∀ reference ∈ entry.references, store.Knows reference)
    (means : entry.Means between shape) (fieldless : entry.fieldNames = []) :
    Ends (fun _ next => EntryBuilt types done entry rest store next) (¬ TypesWellFormed types)
      ((discard (insertType shape) : Resolve Unit) between) := by
  have padded := loaded.pad pads ordered
  have sameOthers : othersOf (done ++ [entry]) = othersOf done ++ [entry] := by
    simp [othersOf, noStruct]
  have sameStructs : structsOf (done ++ [entry]) = structsOf done := by
    simp [structsOf, noStruct]
  have sameAnnounced : announced (entry :: rest) = announced rest := by
    simp [announced, structsOf, noStruct]
  rw [insertType_run_of_means means noStruct, TypeStore.appendNamed, means.name?_eq]
  dsimp only
  cases free : between.find? entry.name with
  | none =>
      have built := padded.declare means.present means free
      refine ⟨?_, ⟨?_, ?_⟩, ?_⟩
      · rw [Loaded, sameOthers, sameStructs, ← sameAnnounced]
        exact built
      · rw [fieldless]
        exact List.nodup_nil
      · intro reference member
        exact (loaded.knows_iff split reference).mp (known reference member)
      · rw [sameStructs]
        exact .tail (.single (.pad pads ordered))
          (.declare (means.isStruct_eq.trans noStruct) means.name?_eq built.ordered)
  | some number =>
      refine ⟨trivial, ?_⟩
      intro wellFormed
      rw [wellFormed.name_free split noStruct padded] at free
      cases free

theorem Loaded.fill {entry : TypeEntry} (loaded : Loaded store done (entry :: rest))
    (split : types = done ++ entry :: rest) :
    Ends (fun _ next => EntryBuilt types done entry rest store next) (¬ TypesWellFormed types)
      (entry.fill store) := by
  have unknown : (∃ reference ∈ entry.references, ¬ store.Knows reference) →
      ¬ TypesWellFormed types := by
    intro wrong wellFormed
    obtain ⟨reference, member, isUnknown⟩ := wrong
    exact isUnknown (wellFormed.knows split loaded reference member)
  cases entry with
  | struct name fields => exact loaded.fillStruct split
  | trait name prototypes =>
      have resolved := (Outcome.mapM PrototypeTerm.Means.grow PrototypeTerm.resolve_outcome
        loaded.ordered loaded.distinct prototypes).ends
      apply (resolved.imp (fun _ _ facts => facts) unknown).bind
      intro shapes between facts
      obtain ⟨pads, ordered, known, means⟩ := facts
      exact loaded.insert split rfl pads ordered known ⟨shapes, rfl, means⟩ rfl
  | aliasOf name target =>
      have resolved := (target.resolve_outcome loaded.ordered loaded.distinct).ends
      apply (resolved.imp (fun _ _ facts => facts) unknown).bind
      intro number between facts
      obtain ⟨pads, ordered, known, means⟩ := facts
      exact loaded.insert split rfl pads ordered known ⟨number, rfl, means⟩ rfl

/-- The second pass. -/
theorem Loaded.fillAll (loaded : Loaded store done rest) (split : types = done ++ rest) :
    Ends (fun _ next => Loaded next types [] ∧
        (∀ before entry after, rest = before ++ entry :: after →
          entry.Fits types (done ++ before)) ∧
        ReflTransGen Advance ((structsOf done).length, store) ((structsOf types).length, next))
      (¬ TypesWellFormed types) (rest.forM TypeEntry.fill store) := by
  induction rest generalizing done store with
  | nil =>
      rw [List.append_nil] at split
      rw [split]
      refine ⟨loaded, ?_, .refl⟩
      intro before entry after impossible
      exact absurd impossible.symm (by simp)
  | cons entry rest induction =>
      rw [List.forM]
      apply (loaded.fill split).bind
      intro _ between built
      apply (induction built.loaded (by rw [split, List.append_assoc]; rfl)).imp
      · intro _ next facts
        obtain ⟨finished, fits, steps⟩ := facts
        refine ⟨finished, ?_, built.steps.trans steps⟩
        intro before other after same
        cases before with
        | nil =>
            obtain ⟨rfl, _⟩ := List.cons.inj same
            rw [List.append_nil]
            exact built.fits
        | cons first before =>
            obtain ⟨rfl, sameRest⟩ := List.cons.inj same
            have fitsLater := fits before other after sameRest
            rwa [List.append_assoc] at fitsLater
      · exact fun wrong => wrong

end Entry

/-- A store of structs without fields. -/
def announcedStore (pointerSize : PointerSize) (names : List String) : TypeStore :=
  ⟨pointerSize, names.map (.struct · [] [])⟩

theorem announcedStore_names (pointerSize : PointerSize) (names : List String) :
    (announcedStore pointerSize names).names = names := by
  rw [TypeStore.names, announcedStore, List.filterMap_map]
  exact List.filterMap_some

theorem announcedStore_shapeAt {pointerSize : PointerSize} {names : List String}
    {number : TypeNumber} {shape : Shape}
    (isShape : (announcedStore pointerSize names).shapeAt number = .ok shape) :
    ∃ name, shape = .struct name [] [] := by
  have member := List.mem_of_getElem? (TypeStore.shapeAt_ok_iff.mp isShape)
  obtain ⟨name, _, same⟩ := List.mem_map.mp member
  exact ⟨name, same.symm⟩

theorem announcedStore_ordered (pointerSize : PointerSize) (names : List String) :
    (announcedStore pointerSize names).Ordered := by
  refine ⟨?_, ?_, ?_⟩
  · intro number shape isShape mentioned member
    obtain ⟨name, rfl⟩ := announcedStore_shapeAt isShape
    cases member
  · intro number shape isShape _ mentioned member
    obtain ⟨name, rfl⟩ := announcedStore_shapeAt isShape
    cases member
  · intro number cycle
    obtain ⟨_, ⟨shape, isShape, embedded⟩, _⟩ := TransGen.head'_iff.mp cycle
    obtain ⟨name, rfl⟩ := announcedStore_shapeAt isShape
    cases embedded

theorem announcedStore_loaded (pointerSize : PointerSize) (types : List TypeEntry)
    (distinct : ((structsOf types).map TypeEntry.name).Nodup) :
    Loaded (announcedStore pointerSize ((structsOf types).map TypeEntry.name)) [] types := by
  refine ⟨announcedStore_ordered _ _, ?_, _, [], (List.append_nil _).symm, ?_, .nil⟩
  · rw [announcedStore_names]
    exact distinct
  · change List.Forall₂ _ (announced types) _
    rw [announced, announcedStore, List.map_map, List.forall₂_map_left_iff,
      List.forall₂_map_right_iff]
    apply List.forall₂_same.mpr
    intro entry _
    exact ⟨[], [], rfl, .nil⟩

theorem announce_run (name : String) (fields : List FieldTerm) (store : TypeStore) :
    (TypeEntry.struct name fields).announce store =
      ((store.announce name).mapError .store).map fun result => ((), result.2) := by
  rw [TypeEntry.announce, Success.run_bind_ok (run_get store)]
  cases store.announce name with
  | ok result => rfl
  | error cause => rfl

/-- A struct is announced if its name is free. -/
theorem announce_struct (pointerSize : PointerSize) (names : List String) (name : String)
    (fields : List FieldTerm) :
    Ends (fun _ next => name ∉ names ∧ next = announcedStore pointerSize (names ++ [name]))
      (name ∈ names)
      ((TypeEntry.struct name fields).announce (announcedStore pointerSize names)) := by
  rw [announce_run, TypeStore.announce, TypeStore.appendNamed, Shape.name?]
  dsimp only
  cases found : (announcedStore pointerSize names).find? name with
  | none =>
      have unused := TypeStore.find?_none_iff.mp found
      rw [announcedStore_names] at unused
      refine ⟨unused, ?_⟩
      simp [TypeStore.append, announcedStore]
  | some number =>
      refine ⟨trivial, ?_⟩
      by_contra unused
      rw [← announcedStore_names pointerSize names, ← TypeStore.find?_none_iff, found] at unused
      cases unused

theorem announceAll (pointerSize : PointerSize) (entries : List TypeEntry)
    {names : List String} (distinct : names.Nodup) :
    let all := names ++ (structsOf entries).map TypeEntry.name
    Ends (fun _ next => all.Nodup ∧ next = announcedStore pointerSize all) (¬ all.Nodup)
      (entries.forM TypeEntry.announce (announcedStore pointerSize names)) := by
  induction entries generalizing names with
  | nil =>
      simp only [structsOf, List.filter_nil, List.map_nil, List.append_nil]
      exact ⟨distinct, rfl⟩
  | cons entry entries induction =>
      rw [List.forM]
      cases entry with
      | struct name fields =>
          have regroup : names ++ (structsOf (.struct name fields :: entries)).map TypeEntry.name =
              names ++ [name] ++ (structsOf entries).map TypeEntry.name := by
            simp [structsOf_struct, TypeEntry.name]
          rw [regroup]
          have first := announce_struct pointerSize names name fields
          apply (first.imp (fun _ _ facts => facts) ?_).bind
          · intro _ between facts
            obtain ⟨unused, rfl⟩ := facts
            apply induction
            rw [List.nodup_append]
            refine ⟨distinct, List.nodup_singleton _, ?_⟩
            intro old isOld new isNew same
            rw [same, List.mem_singleton.mp isNew] at isOld
            exact unused isOld
          · intro used all
            rw [List.append_assoc, List.nodup_append] at all
            exact all.2.2 name used name (by simp) rfl
      | trait name prototypes => exact induction distinct
      | aliasOf name target => exact induction distinct

theorem Advance.grows {before after : Nat × TypeStore} (advance : Advance before after) :
    before.2.Grows after.2 := by
  cases advance with
  | pad pads _ => exact pads.grows
  | declare _ _ _ => exact TypeStore.grows_of_append rfl rfl
  | extend success => exact (TypeStore.Step.extend success).grows
  | finish => exact TypeStore.Grows.refl _

theorem grows_of_advances {before after : Nat × TypeStore}
    (steps : ReflTransGen Advance before after) : before.2.Grows after.2 := by
  induction steps with
  | refl => exact TypeStore.Grows.refl _
  | tail _ step induction => exact induction.trans step.grows

/-- The store that is built from well-formed entries. -/
structure TypesBuilt (pointerSize : PointerSize) (types : List TypeEntry)
    (store : TypeStore) : Prop where
  holds : Holds store (structsOf types) (othersOf types)
  pointerSize_eq : store.pointerSize = pointerSize
  steps : ReflTransGen Advance
    (0, announcedStore pointerSize ((structsOf types).map TypeEntry.name))
    ((structsOf types).length, store)

theorem Holds.wellFormed {types : List TypeEntry} {store : TypeStore}
    (holds : Holds store (structsOf types) (othersOf types))
    (fits : ∀ before entry after, types = before ++ entry :: after → entry.Fits types before) :
    TypesWellFormed types := by
  refine ⟨?_, fits, ?_⟩
  · have distinct := holds.distinct
    rw [holds.names_eq] at distinct
    exact ((parts_perm types).map TypeEntry.name).nodup_iff.mp distinct
  · intro name cycle
    apply holds.acyclic name
    refine TransGen.mono ?_ _ _ cycle
    intro outer inner embeds
    obtain ⟨entry, member, found⟩ := embeds
    exact ⟨entry, mem_parts.mpr member, found⟩

theorem TypesWellFormed.structNames_nodup {types : List TypeEntry}
    (wellFormed : TypesWellFormed types) : ((structsOf types).map TypeEntry.name).Nodup :=
  wellFormed.namesDistinct.sublist (List.filter_sublist.map TypeEntry.name)

/-- The passes succeed exactly if the entries are well formed. -/
theorem passes_end (pointerSize : PointerSize) (types : List TypeEntry) :
    Ends (fun _ store => TypesWellFormed types ∧ TypesBuilt pointerSize types store)
      (¬ TypesWellFormed types)
      ((do types.forM TypeEntry.announce; types.forM TypeEntry.fill : Resolve Unit)
        (.empty pointerSize)) := by
  have first := announceAll pointerSize types List.nodup_nil
  apply (first.imp (fun _ _ facts => facts) ?_).bind
  · intro _ between facts
    obtain ⟨distinct, rfl⟩ := facts
    rw [List.nil_append] at distinct ⊢
    apply ((announcedStore_loaded pointerSize types distinct).fillAll rfl).imp
    · intro _ store facts
      obtain ⟨loaded, fits, steps⟩ := facts
      have holds : Holds store (structsOf types) (othersOf types) := by
        have all : structsOf types ++ announced [] = structsOf types := List.append_nil _
        rw [← all]
        exact loaded
      exact ⟨holds.wellFormed fits, holds, (grows_of_advances steps).pointerSize, steps⟩
    · exact fun wrong => wrong
  · intro repeated wellFormed
    exact repeated wellFormed.structNames_nodup

theorem buildTypes_cases (pointerSize : PointerSize) (types : List TypeEntry) :
    (∃ store, buildTypes pointerSize types = .ok store ∧ TypesWellFormed types ∧
      TypesBuilt pointerSize types store) ∨
    ∃ cause, buildTypes pointerSize types = .error cause ∧ cause.InDescription ∧
      ¬ TypesWellFormed types := by
  have ends := passes_end pointerSize types
  unfold buildTypes
  cases ran : (do types.forM TypeEntry.announce; types.forM TypeEntry.fill : Resolve Unit)
      (.empty pointerSize) with
  | ok result =>
      rw [ran] at ends
      refine .inl ⟨result.2, ?_, ends⟩
      dsimp only [StateT.run]
      rw [ran]
      rfl
  | error cause =>
      rw [ran] at ends
      refine .inr ⟨cause, ?_, ends⟩
      dsimp only [StateT.run]
      rw [ran]
      rfl

end Description

end CBackend
