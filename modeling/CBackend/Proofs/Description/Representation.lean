import CBackend.Proofs.Description.WellFormed

/-!
# Stores that represent entries

While a description is built, the store holds all structs at its front, in
the order of their entries and with the fields they have got so far.  After
them come the traits and aliases that have been reached, in their order, with
anonymous types between them.  `Holds` says this, and each kind of step that
building takes keeps it.

Such a store and its entries embed alike: a walk by value between named types
of the store is one between the names of the entries, and the other way round.
-/

namespace CBackend.Description

open Relation (ReflTransGen TransGen)

/-- A shape that says what an entry says. -/
def TypeEntry.Means (store : TypeStore) : TypeEntry → Shape → Prop
  | .struct name terms, shape =>
    ∃ fields signature, shape = .struct name fields signature ∧
      List.Forall₂ (FieldTerm.Means store) terms fields
  | .trait name terms, shape =>
    ∃ prototypes, shape = .trait name prototypes ∧
      List.Forall₂ (PrototypeTerm.Means store) terms prototypes
  | .aliasOf name term, shape =>
    ∃ target, shape = .aliasOf name target ∧ term.Means store target

namespace TypeEntry.Means

variable {store : TypeStore} {entry : TypeEntry} {shape : Shape}

theorem grow {next : TypeStore} (grows : store.Grows next) (entry : TypeEntry) (shape : Shape)
    (means : entry.Means store shape) : entry.Means next shape := by
  cases entry with
  | struct name terms =>
      obtain ⟨fields, signature, same, related⟩ := means
      refine ⟨fields, signature, same, related.imp ?_⟩
      intro term field fieldMeans
      exact fieldMeans.grow grows term
  | trait name terms =>
      obtain ⟨prototypes, same, related⟩ := means
      refine ⟨prototypes, same, related.imp ?_⟩
      intro term prototype prototypeMeans
      exact prototypeMeans.grow grows term prototype
  | aliasOf name term =>
      obtain ⟨target, same, targetMeans⟩ := means
      exact ⟨target, same, targetMeans.grow grows term⟩

theorem name?_eq (means : entry.Means store shape) : shape.name? = some entry.name := by
  cases entry with
  | struct name terms =>
      obtain ⟨_, _, rfl, _⟩ := means
      rfl
  | trait name terms =>
      obtain ⟨_, rfl, _⟩ := means
      rfl
  | aliasOf name term =>
      obtain ⟨_, rfl, _⟩ := means
      rfl

theorem isStruct_eq (means : entry.Means store shape) : shape.isStruct = entry.isStruct := by
  cases entry with
  | struct name terms =>
      obtain ⟨_, _, rfl, _⟩ := means
      rfl
  | trait name terms =>
      obtain ⟨_, rfl, _⟩ := means
      rfl
  | aliasOf name term =>
      obtain ⟨_, rfl, _⟩ := means
      rfl

end TypeEntry.Means

section Embedding

variable {store : TypeStore}

theorem TypeTerm.Means.named_iff {term : TypeTerm} {number : TypeNumber}
    (means : term.Means store number) (name : String) :
    store.Named name number ↔ term.embedded? = some name := by
  have nameless : ∀ {shape : Shape}, store.shapeAt number = .ok shape → shape.name? = none →
      ¬ store.Named name number := by
    intro shape isShape hasNone named
    obtain ⟨other, isOther, hasName⟩ := named
    rw [isShape] at isOther
    cases isOther
    rw [hasNone] at hasName
    cases hasName
  cases term with
  | named written =>
      rw [TypeTerm.Means, TypeStore.NameMeans] at means
      rw [TypeTerm.embedded?]
      cases spelled : BasicCode.ofMnemonic? written with
      | some code =>
          rw [spelled] at means
          simpa using nameless means rfl
      | none =>
          rw [spelled] at means
          obtain ⟨shape, isShape, hasName⟩ := means
          constructor
          · intro named
            obtain ⟨other, isOther, otherName⟩ := named
            rw [isShape] at isOther
            cases isOther
            rw [hasName] at otherName
            simpa using otherName
          · intro same
            have written_eq : written = name := by simpa using same
            rw [← written_eq]
            exact ⟨shape, isShape, hasName⟩
  | pointer mode pointee =>
      rw [TypeTerm.Means] at means
      obtain ⟨_, isShape, _⟩ := means
      exact iff_of_false (nameless isShape rfl) (Option.some_ne_none name).symm
  | array element capacity =>
      rw [TypeTerm.Means] at means
      obtain ⟨_, isShape, _⟩ := means
      exact iff_of_false (nameless isShape rfl) (Option.some_ne_none name).symm
  | function signature =>
      rw [TypeTerm.Means] at means
      obtain ⟨_, isShape, _⟩ := means
      exact iff_of_false (nameless isShape rfl) (Option.some_ne_none name).symm

theorem FieldTerm.Means.type {term : FieldTerm} {field : Field}
    (means : term.Means store field) : term.type.Means store field.type := by
  obtain ⟨name, type⟩ := term
  rw [FieldTerm.Means] at means
  exact means.2

theorem FieldTerm.Means.name_eq {term : FieldTerm} {field : Field}
    (means : term.Means store field) : field.name = term.name := by
  obtain ⟨name, type⟩ := term
  rw [FieldTerm.Means] at means
  exact means.1

theorem names_of_fieldsMean {terms : List FieldTerm} {fields : List Field}
    (related : List.Forall₂ (FieldTerm.Means store) terms fields) :
    fields.map Field.name = terms.map FieldTerm.name := by
  induction related with
  | nil => rfl
  | cons first _ induction => rw [List.map_cons, List.map_cons, first.name_eq, induction]

/-- An entry and its shape hold the same named types by value. -/
theorem TypeEntry.Means.mem_embedded_iff {entry : TypeEntry} {shape : Shape}
    (means : entry.Means store shape) (name : String) :
    name ∈ entry.embedded ↔ ∃ number ∈ shape.embedded, store.Named name number := by
  cases entry with
  | struct declared terms =>
      obtain ⟨fields, signature, rfl, related⟩ := means
      rw [TypeEntry.embedded, List.mem_filterMap]
      constructor
      · intro embedded
        obtain ⟨term, member, holds⟩ := embedded
        obtain ⟨field, isField, fieldMeans⟩ := Success.related_of_mem related term member
        exact ⟨field.type, List.mem_map_of_mem isField, (fieldMeans.type.named_iff name).mpr holds⟩
      · intro embedded
        obtain ⟨number, member, named⟩ := embedded
        obtain ⟨field, isField, rfl⟩ := List.mem_map.mp member
        obtain ⟨term, isTerm, fieldMeans⟩ := Success.related_of_mem related.flip field isField
        exact ⟨term, isTerm, (FieldTerm.Means.type fieldMeans |>.named_iff name).mp named⟩
  | trait declared terms =>
      obtain ⟨prototypes, rfl, _⟩ := means
      exact iff_of_false List.not_mem_nil nofun
  | aliasOf declared term =>
      obtain ⟨target, rfl, targetMeans⟩ := means
      rw [TypeEntry.embedded, Option.mem_toList, ← targetMeans.named_iff]
      simp [Shape.embedded]

end Embedding

/-- The front of the store consists of the structs, and its other named types
are the given traits and aliases. -/
structure Holds (store : TypeStore) (structs others : List TypeEntry) : Prop where
  ordered : store.Ordered
  distinct : store.names.Nodup
  shapes : ∃ front tail, store.shapes = front ++ tail ∧
    List.Forall₂ (TypeEntry.Means store) structs front ∧
    List.Forall₂ (TypeEntry.Means store) others (tail.filter (·.name?.isSome))

/-- A relation of two lists, at one place of the first. -/
theorem forall₂_split {relation : α → β → Prop} {before after : List α} {item : α}
    {values : List β} (related : List.Forall₂ relation (before ++ item :: after) values) :
    ∃ first value later, values = first ++ value :: later ∧
      List.Forall₂ relation before first ∧ relation item value ∧
      List.Forall₂ relation after later := by
  induction before generalizing values with
  | nil =>
      cases related with
      | @cons _ value _ later holds others => exact ⟨[], value, later, rfl, .nil, holds, others⟩
  | cons other before induction =>
      cases related with
      | @cons _ value _ values holds others =>
          obtain ⟨first, found, later, rfl, relatedBefore, holdsHere, relatedAfter⟩ :=
            induction others
          exact ⟨value :: first, found, later, rfl, .cons holds relatedBefore, holdsHere,
            relatedAfter⟩

namespace Holds

variable {store next : TypeStore} {structs others before after : List TypeEntry}
  {entry : TypeEntry}

theorem names_of_means {entries : List TypeEntry} {shapes : List Shape}
    (related : List.Forall₂ (TypeEntry.Means store) entries shapes) :
    shapes.filterMap Shape.name? = entries.map TypeEntry.name := by
  induction related with
  | nil => rfl
  | cons first _ induction =>
      rw [List.filterMap_cons_some first.name?_eq, induction, List.map_cons]

theorem names_eq (holds : Holds store structs others) :
    store.names = (structs ++ others).map TypeEntry.name := by
  obtain ⟨front, tail, same, structsMean, othersMean⟩ := holds.shapes
  have kept : tail.filterMap Shape.name? =
      (tail.filter (·.name?.isSome)).filterMap Shape.name? := by
    rw [List.filterMap_filter]
    apply List.filterMap_congr
    intro shape _
    cases shape.name? with
    | none => rfl
    | some name => rfl
  rw [TypeStore.names, same, List.filterMap_append, names_of_means structsMean, kept,
    names_of_means othersMean, List.map_append]

/-- Every entry has its type in the store. -/
theorem declared (holds : Holds store structs others) (member : entry ∈ structs ++ others) :
    ∃ number shape, store.shapeAt number = .ok shape ∧ entry.Means store shape := by
  obtain ⟨front, tail, same, structsMean, othersMean⟩ := holds.shapes
  have found : ∃ shape ∈ store.shapes, entry.Means store shape := by
    rw [same]
    rcases List.mem_append.mp member with isStruct | isOther
    · obtain ⟨shape, isShape, means⟩ := Success.related_of_mem structsMean entry isStruct
      exact ⟨shape, List.mem_append_left _ isShape, means⟩
    · obtain ⟨shape, isShape, means⟩ := Success.related_of_mem othersMean entry isOther
      exact ⟨shape, List.mem_append_right _ (List.mem_filter.mp isShape).1, means⟩
  obtain ⟨shape, isShape, means⟩ := found
  obtain ⟨number, isHere⟩ := List.mem_iff_getElem?.mp isShape
  exact ⟨number, shape, TypeStore.shapeAt_ok_iff.mpr isHere, means⟩

/-- Every named type of the store comes from an entry. -/
theorem represented (holds : Holds store structs others) {number : TypeNumber} {shape : Shape}
    {name : String} (isShape : store.shapeAt number = .ok shape)
    (hasName : shape.name? = some name) :
    ∃ entry ∈ structs ++ others, entry.Means store shape ∧ entry.name = name := by
  obtain ⟨front, tail, same, structsMean, othersMean⟩ := holds.shapes
  have member := List.mem_of_getElem? (TypeStore.shapeAt_ok_iff.mp isShape)
  have found : ∃ entry ∈ structs ++ others, entry.Means store shape := by
    rw [same] at member
    rcases List.mem_append.mp member with inFront | inTail
    · obtain ⟨entry, isEntry, means⟩ := Success.related_of_mem structsMean.flip shape inFront
      exact ⟨entry, List.mem_append_left _ isEntry, means⟩
    · have kept : shape ∈ tail.filter (·.name?.isSome) := by
        rw [List.mem_filter, hasName]
        exact ⟨inTail, rfl⟩
      obtain ⟨entry, isEntry, means⟩ := Success.related_of_mem othersMean.flip shape kept
      exact ⟨entry, List.mem_append_right _ isEntry, means⟩
  obtain ⟨entry, isEntry, means⟩ := found
  have entryName := means.name?_eq
  rw [hasName] at entryName
  exact ⟨entry, isEntry, means, (Option.some.inj entryName).symm⟩

/-- The structs stand at the front, in the order of their entries. -/
theorem structAt (holds : Holds store (before ++ entry :: after) others) :
    ∃ shape, store.shapeAt before.length = .ok shape ∧ entry.Means store shape := by
  obtain ⟨front, tail, same, structsMean, _⟩ := holds.shapes
  obtain ⟨first, shape, later, rfl, relatedBefore, means, _⟩ := forall₂_split structsMean
  refine ⟨shape, ?_, means⟩
  rw [TypeStore.shapeAt_ok_iff, same, relatedBefore.length_eq]
  simp

theorem find?_struct (holds : Holds store (before ++ entry :: after) others) :
    store.find? entry.name = some before.length := by
  obtain ⟨shape, isShape, means⟩ := holds.structAt
  apply (TypeStore.find?_eq_some_iff holds.distinct).mpr
  exact ⟨shape, isShape, means.name?_eq⟩

theorem embeds_named (holds : Holds store structs others) {outer inner : TypeNumber}
    {name : String} (embeds : store.Embeds outer inner) (named : store.Named name inner) :
    ∃ outerName, store.Named outerName outer ∧ Embeds (structs ++ others) outerName name := by
  obtain ⟨shape, isShape, embedded⟩ := embeds
  have hasName : ∃ outerName, shape.name? = some outerName := by
    cases shape with
    | struct declared _ _ => exact ⟨declared, rfl⟩
    | trait declared _ => exact ⟨declared, rfl⟩
    | aliasOf declared _ => exact ⟨declared, rfl⟩
    | basic _ => cases embedded
    | pointer _ _ => cases embedded
    | array _ _ => cases embedded
    | function _ => cases embedded
  obtain ⟨outerName, hasName⟩ := hasName
  obtain ⟨entry, isEntry, means, entryName⟩ := holds.represented isShape hasName
  refine ⟨outerName, ⟨shape, isShape, hasName⟩, entry, isEntry, entryName, ?_⟩
  exact (means.mem_embedded_iff name).mpr ⟨inner, embedded, named⟩

/-- A walk in the store that ends at a named type is a walk between names. -/
theorem walk_named (holds : Holds store structs others) {source target : TypeNumber}
    {name : String} (named : store.Named name target)
    (walk : ReflTransGen store.Embeds source target) :
    ∃ sourceName, store.Named sourceName source ∧
      ReflTransGen (Embeds (structs ++ others)) sourceName name := by
  induction walk using ReflTransGen.head_induction_on with
  | refl => exact ⟨name, named, .refl⟩
  | head embeds _ induction =>
      obtain ⟨middle, middleNamed, reaches⟩ := induction
      obtain ⟨outer, outerNamed, step⟩ := holds.embeds_named embeds middleNamed
      exact ⟨outer, outerNamed, .head step reaches⟩

theorem named_embeds (holds : Holds store structs others) {outer inner : String}
    {number : TypeNumber} (embeds : Embeds (structs ++ others) outer inner)
    (named : store.Named outer number) :
    ∃ innerNumber, store.Named inner innerNumber ∧ store.Embeds number innerNumber := by
  obtain ⟨entry, isEntry, rfl, embedded⟩ := embeds
  obtain ⟨found, shape, isShape, means⟩ := holds.declared isEntry
  have same : found = number :=
    TypeStore.Named.unique holds.distinct ⟨shape, isShape, means.name?_eq⟩ named
  rw [same] at isShape
  obtain ⟨innerNumber, isEmbedded, innerNamed⟩ := (means.mem_embedded_iff inner).mp embedded
  exact ⟨innerNumber, innerNamed, shape, isShape, isEmbedded⟩

theorem named_walk (holds : Holds store structs others) {outer inner : String}
    {number : TypeNumber} (walk : TransGen (Embeds (structs ++ others)) outer inner)
    (named : store.Named outer number) :
    ∃ innerNumber, store.Named inner innerNumber ∧
      TransGen store.Embeds number innerNumber := by
  induction walk with
  | single embeds =>
      obtain ⟨innerNumber, innerNamed, step⟩ := holds.named_embeds embeds named
      exact ⟨innerNumber, innerNamed, .single step⟩
  | tail _ embeds induction =>
      obtain ⟨middle, middleNamed, reaches⟩ := induction
      obtain ⟨innerNumber, innerNamed, step⟩ := holds.named_embeds embeds middleNamed
      exact ⟨innerNumber, innerNamed, .tail reaches step⟩

/-- Entries that a store holds do not embed themselves, because no type of
the store does. -/
theorem acyclic (holds : Holds store structs others) (name : String) :
    ¬ TransGen (Embeds (structs ++ others)) name name := by
  intro cycle
  obtain ⟨_, ⟨entry, isEntry, sameName, _⟩, _⟩ := TransGen.head'_iff.mp cycle
  obtain ⟨number, shape, isShape, means⟩ := holds.declared isEntry
  have named : store.Named name number := ⟨shape, isShape, by rw [means.name?_eq, sameName]⟩
  obtain ⟨other, otherNamed, walk⟩ := holds.named_walk cycle named
  rw [otherNamed.unique holds.distinct named] at walk
  exact holds.ordered.acyclic number walk

theorem pad (holds : Holds store structs others) (pads : store.Pads next)
    (ordered : next.Ordered) : Holds next structs others := by
  obtain ⟨front, tail, same, structsMean, othersMean⟩ := holds.shapes
  have grow := TypeEntry.Means.grow pads.grows
  refine ⟨ordered, ?_, ?_⟩
  · rw [pads.names_eq]
    exact holds.distinct
  · obtain ⟨added, rfl, anonymous⟩ := pads
    refine ⟨front, tail ++ added, ?_, structsMean.imp grow, ?_⟩
    · simp [same]
    · have dropped : added.filter (·.name?.isSome) = [] := by
        apply List.filter_eq_nil_iff.mpr
        intro shape member
        simp [(anonymous shape member).name?_eq_none]
      rw [List.filter_append, dropped, List.append_nil]
      exact othersMean.imp grow

/-- A trait or alias is put at the end. -/
theorem declare (holds : Holds store structs others) {shape : Shape}
    (present : ∀ mentioned ∈ shape.mentions, mentioned < store.size)
    (means : entry.Means store shape) (free : store.find? entry.name = none) :
    Holds (store.append shape).2 structs (others ++ [entry]) := by
  obtain ⟨front, tail, same, structsMean, othersMean⟩ := holds.shapes
  have hasName := means.name?_eq
  have step : store.Step (store.append shape).2 := by
    apply TypeStore.Step.append
    intro name named
    rw [hasName] at named
    cases named
    exact free
  have grow := TypeEntry.Means.grow step.grows
  refine ⟨holds.ordered.append present, step.names_nodup holds.distinct, front, tail ++ [shape],
    ?_, structsMean.imp grow, ?_⟩
  · simp [TypeStore.append, same]
  · have kept : [shape].filter (·.name?.isSome) = [shape] := by simp [hasName]
    rw [List.filter_append, kept]
    exact List.rel_append (othersMean.imp grow) (.cons (grow entry shape means) .nil)

/-- A struct gets one more field. -/
theorem extend {name : String} {terms : List FieldTerm} {term : FieldTerm} {field : Field}
    (holds : Holds store (before ++ .struct name terms :: after) others)
    (success : store.extend before.length field = .ok next) (means : term.Means store field) :
    Holds next (before ++ .struct name (terms ++ [term]) :: after) others := by
  have step := TypeStore.Step.extend success
  have grow := TypeEntry.Means.grow step.grows
  refine ⟨holds.ordered.extend success, step.names_nodup holds.distinct, ?_⟩
  obtain ⟨front, tail, same, structsMean, othersMean⟩ := holds.shapes
  obtain ⟨first, shape, later, rfl, beforeMeans, shapeMeans, afterMeans⟩ :=
    forall₂_split structsMean
  obtain ⟨fields, signature, rfl, fieldsMeans⟩ := shapeMeans
  have isHere : store.shapeAt before.length = .ok (.struct name fields signature) := by
    rw [TypeStore.shapeAt_ok_iff, same, beforeMeans.length_eq]
    simp
  obtain ⟨_, _, _, added, isStruct, _, _, _, _, rfl⟩ := TypeStore.extend_success_iff.mp success
  rw [isHere] at isStruct
  cases isStruct
  refine ⟨first ++ .struct name (fields ++ [field]) (signature ++ added) :: later, tail, ?_, ?_,
    othersMean.imp grow⟩
  · rw [TypeStore.replace, same, beforeMeans.length_eq]
    simp
  · refine List.rel_append (beforeMeans.imp grow) (.cons ?_ (afterMeans.imp grow))
    refine ⟨_, _, rfl, List.rel_append (fieldsMeans.imp ?_) (.cons ?_ .nil)⟩
    · intro other otherField otherMeans
      exact otherMeans.grow step.grows other
    · exact means.grow step.grows term

end Holds

end CBackend.Description
