import CBackend.Proofs.Description.Snapshots

/-!
# Stores of the same entries

Two stores can hold the same entries under different numbers, for instance
when structs were listed in another order.  What a term means in the one then
has a counterpart in the other: aliases stand for structs of the same name,
and counterparts flatten to the same codes.
-/

namespace CBackend.Description

open TypeStore (Named)

/-- The named types of the two stores come from the same entries. -/
structure Twins (store other : TypeStore) : Prop where
  pointerSize : other.pointerSize = store.pointerSize
  ordered : store.Ordered
  otherOrdered : other.Ordered
  names : ∀ name, name ∈ other.names ↔ name ∈ store.names
  shared : ∀ number shape number' shape', store.shapeAt number = .ok shape →
    other.shapeAt number' = .ok shape' → shape.name?.isSome → shape'.name? = shape.name? →
    ∃ entry : TypeEntry, entry.Means store shape ∧ entry.Means other shape'

namespace Twins

variable {store other : TypeStore}

theorem symm (twins : Twins store other) : Twins other store := by
  refine ⟨twins.pointerSize.symm, twins.otherOrdered, twins.ordered, ?_, ?_⟩
  · intro name
    exact (twins.names name).symm
  · intro number shape number' shape' isShape isShape' named same
    rw [← same] at named
    obtain ⟨entry, means, means'⟩ :=
      twins.shared number' shape' number shape isShape' isShape named same.symm
    exact ⟨entry, means', means⟩

theorem of_holds {structs structs' others : List TypeEntry} (holds : Holds store structs others)
    (holds' : Holds other structs' others) (permuted : structs'.Perm structs)
    (pointerSize : other.pointerSize = store.pointerSize) : Twins store other := by
  have same : (structs' ++ others).Perm (structs ++ others) := permuted.append_right others
  refine ⟨pointerSize, holds.ordered, holds'.ordered, ?_, ?_⟩
  · intro name
    rw [holds.names_eq, holds'.names_eq]
    exact (same.map TypeEntry.name).mem_iff
  · intro number shape number' shape' isShape isShape' named sameName
    obtain ⟨name, hasName⟩ := Option.isSome_iff_exists.mp named
    rw [hasName] at sameName
    obtain ⟨entry, isEntry, means, entryName⟩ := holds.represented isShape hasName
    obtain ⟨entry', isEntry', means', entryName'⟩ := holds'.represented isShape' sameName
    have distinct : ((structs ++ others).map TypeEntry.name).Nodup := by
      rw [← holds.names_eq]
      exact holds.distinct
    have unique : entry' = entry :=
      List.inj_on_of_nodup_map distinct (same.mem_iff.mp isEntry') isEntry
        (entryName'.trans entryName.symm)
    rw [unique] at means'
    exact ⟨entry, means, means'⟩

theorem counterpart (twins : Twins store other) {name : String} {number : TypeNumber}
    (named : store.Named name number) : ∃ number', other.Named name number' := by
  obtain ⟨shape, member, hasName⟩ :=
    List.mem_filterMap.mp ((twins.names name).mpr named.mem_names)
  obtain ⟨number', isHere⟩ := List.mem_iff_getElem?.mp member
  exact ⟨number', shape, TypeStore.shapeAt_ok_iff.mpr isHere, hasName⟩

section Counterparts

variable {number number' : TypeNumber} {name : String}

/-- What is named by a term in one store is named by it in the other. -/
theorem named {term : TypeTerm} (means : term.Means store number)
    (means' : term.Means other number') (named : store.Named name number) :
    other.Named name number' :=
  (means'.named_iff name).mpr ((means.named_iff name).mp named)

theorem alias_shared (twins : Twins store other) {target : TypeNumber}
    (isAlias : store.shapeAt number = .ok (.aliasOf name target))
    (named' : other.Named name number') :
    ∃ target' term, other.shapeAt number' = .ok (.aliasOf name target') ∧
      TypeTerm.Means store term target ∧ TypeTerm.Means other term target' := by
  obtain ⟨shape', isShape', hasName'⟩ := named'
  obtain ⟨entry, means, means'⟩ := twins.shared _ _ _ _ isAlias isShape' rfl hasName'
  cases entry with
  | struct _ _ =>
      obtain ⟨_, _, same, _⟩ := means
      cases same
  | trait _ _ =>
      obtain ⟨_, same, _⟩ := means
      cases same
  | aliasOf declared term =>
      obtain ⟨_, same, targetMeans⟩ := means
      cases same
      obtain ⟨target', rfl, targetMeans'⟩ := means'
      exact ⟨target', term, isShape', targetMeans, targetMeans'⟩

theorem struct_shared (twins : Twins store other) {fields : List Field} {signature : Signature}
    (isStruct : store.shapeAt number = .ok (.struct name fields signature))
    (named' : other.Named name number') :
    ∃ fields' signature' terms, other.shapeAt number' = .ok (.struct name fields' signature') ∧
      List.Forall₂ (FieldTerm.Means store) terms fields ∧
      List.Forall₂ (FieldTerm.Means other) terms fields' := by
  obtain ⟨shape', isShape', hasName'⟩ := named'
  obtain ⟨entry, means, means'⟩ := twins.shared _ _ _ _ isStruct isShape' rfl hasName'
  cases entry with
  | trait _ _ =>
      obtain ⟨_, same, _⟩ := means
      cases same
  | aliasOf _ _ =>
      obtain ⟨_, same, _⟩ := means
      cases same
  | struct declared terms =>
      obtain ⟨_, _, same, fieldsMean⟩ := means
      cases same
      obtain ⟨fields', signature', rfl, fieldsMean'⟩ := means'
      exact ⟨fields', signature', terms, isShape', fieldsMean, fieldsMean'⟩

theorem trait_shared (twins : Twins store other) {prototypes : List Prototype}
    (isTrait : store.shapeAt number = .ok (.trait name prototypes))
    (named' : other.Named name number') :
    ∃ prototypes', other.shapeAt number' = .ok (.trait name prototypes') ∧
      prototypes'.length = prototypes.length := by
  obtain ⟨shape', isShape', hasName'⟩ := named'
  obtain ⟨entry, means, means'⟩ := twins.shared _ _ _ _ isTrait isShape' rfl hasName'
  cases entry with
  | struct _ _ =>
      obtain ⟨_, _, same, _⟩ := means
      cases same
  | aliasOf _ _ =>
      obtain ⟨_, same, _⟩ := means
      cases same
  | trait declared terms =>
      obtain ⟨_, same, related⟩ := means
      cases same
      obtain ⟨prototypes', rfl, related'⟩ := means'
      exact ⟨prototypes', isShape', related'.length_eq.symm.trans related.length_eq⟩

end Counterparts

/-- A value that holds no other has the same codes in both stores. -/
theorem own (twins : Twins store other) {number number' : TypeNumber} {term : TypeTerm}
    {shape : Shape} {codes : Signature} (means : term.Means store number)
    (means' : term.Means other number') (isShape : store.shapeAt number = .ok shape)
    (isOwn : shape.ownCodes? store.pointerSize = some codes) :
    ∃ shape', other.shapeAt number' = .ok shape' ∧
      shape'.ownCodes? other.pointerSize = some codes := by
  rw [twins.pointerSize]
  cases term with
  | named written =>
      rw [TypeTerm.Means, TypeStore.NameMeans] at means means'
      cases spelled : BasicCode.ofMnemonic? written with
      | some code =>
          rw [spelled] at means means'
          rw [means] at isShape
          cases isShape
          exact ⟨_, means', isOwn⟩
      | none =>
          rw [spelled] at means means'
          obtain ⟨found, isFound, hasName⟩ := means
          rw [isShape] at isFound
          cases isFound
          cases shape with
          | trait declared prototypes =>
              cases hasName
              cases isOwn
              obtain ⟨prototypes', isTrait', sameLength⟩ := twins.trait_shared isShape means'
              refine ⟨_, isTrait', ?_⟩
              simp [Shape.ownCodes?, sameLength]
          | struct _ _ _ => cases isOwn
          | aliasOf _ _ => cases isOwn
          | basic _ => cases hasName
          | pointer _ _ => cases hasName
          | array _ _ => cases hasName
          | function _ => cases hasName
  | pointer mode pointee =>
      rw [TypeTerm.Means] at means means'
      obtain ⟨_, isPointer, _⟩ := means
      obtain ⟨_, isPointer', _⟩ := means'
      rw [isPointer] at isShape
      cases isShape
      exact ⟨_, isPointer', isOwn⟩
  | array element capacity =>
      rw [TypeTerm.Means] at means means'
      obtain ⟨_, isArray, _⟩ := means
      obtain ⟨_, isArray', _⟩ := means'
      rw [isArray] at isShape
      cases isShape
      exact ⟨_, isArray', isOwn⟩
  | function signature =>
      rw [TypeTerm.Means] at means means'
      obtain ⟨_, isFunction, _⟩ := means
      obtain ⟨_, isFunction', _⟩ := means'
      rw [isFunction] at isShape
      cases isShape
      exact ⟨_, isFunction', isOwn⟩

theorem types_of_fieldsMean {terms : List FieldTerm} {fields : List Field}
    (related : List.Forall₂ (FieldTerm.Means store) terms fields) :
    List.Forall₂ (TypeTerm.Means store) (terms.map FieldTerm.type) (fields.map Field.type) := by
  rw [List.forall₂_map_left_iff, List.forall₂_map_right_iff]
  apply related.imp
  intro term field means
  exact means.type

/-- Terms flatten to the same codes in both stores. -/
theorem flattens (twins : Twins store other) {numbers numbers' : List TypeNumber}
    {codes : Signature} (flattens : store.Flattens numbers codes) {terms : List TypeTerm}
    (mean : List.Forall₂ (TypeTerm.Means store) terms numbers)
    (mean' : List.Forall₂ (TypeTerm.Means other) terms numbers') :
    other.Flattens numbers' codes := by
  induction flattens generalizing terms numbers' with
  | nil =>
      cases mean
      cases mean'
      exact .nil
  | own isShape isOwn _ induction =>
      cases mean with
      | cons first later =>
          cases mean' with
          | cons first' later' =>
              obtain ⟨shape', isShape', isOwn'⟩ := twins.own first first' isShape isOwn
              exact .own isShape' isOwn' (induction later later')
  | aliasOf isAlias _ _ innerInduction restInduction =>
      cases mean with
      | cons first later =>
          cases mean' with
          | cons first' later' =>
              obtain ⟨target', term, isAlias', targetMeans, targetMeans'⟩ :=
                twins.alias_shared isAlias (named first first' ⟨_, isAlias, rfl⟩)
              exact .aliasOf isAlias'
                (innerInduction (.cons targetMeans .nil) (.cons targetMeans' .nil))
                (restInduction later later')
  | struct isStruct _ _ innerInduction restInduction =>
      cases mean with
      | cons first later =>
          cases mean' with
          | cons first' later' =>
              obtain ⟨fields', _, terms, isStruct', fieldsMean, fieldsMean'⟩ :=
                twins.struct_shared isStruct (named first first' ⟨_, isStruct, rfl⟩)
              exact .struct isStruct'
                (innerInduction (types_of_fieldsMean fieldsMean) (types_of_fieldsMean fieldsMean'))
                (restInduction later later')

/-- Structs of the same name flatten to the same codes. -/
theorem struct_flattens (twins : Twins store other) {number number' : TypeNumber}
    {name : String} {fields fields' : List Field} {signature signature' codes : Signature}
    (isStruct : store.shapeAt number = .ok (.struct name fields signature))
    (isStruct' : other.shapeAt number' = .ok (.struct name fields' signature'))
    (flattens : store.Flattens [number] codes) : other.Flattens [number'] codes := by
  obtain ⟨_, _, terms, isFound, fieldsMean, fieldsMean'⟩ :=
    twins.struct_shared isStruct ⟨_, isStruct', rfl⟩
  rw [isStruct'] at isFound
  cases isFound
  rw [TypeStore.Flattens.struct_iff isStruct] at flattens
  rw [TypeStore.Flattens.struct_iff isStruct']
  exact twins.flattens flattens (types_of_fieldsMean fieldsMean) (types_of_fieldsMean fieldsMean')

/-- A term that stands for a struct does so in both stores. -/
theorem resolves (twins : Twins store other) {number number' target : TypeNumber}
    {term : TypeTerm} {name : String} {fields : List Field} {signature : Signature}
    (resolves : store.unalias number = .ok target)
    (isStruct : store.shapeAt target = .ok (.struct name fields signature))
    (means : term.Means store number) (means' : term.Means other number') :
    ∃ target' fields' signature', other.unalias number' = .ok target' ∧
      other.shapeAt target' = .ok (.struct name fields' signature') := by
  revert term number'
  apply TypeStore.unalias_induction (fun number => ∀ {number' : TypeNumber} {term : TypeTerm},
    term.Means store number → term.Means other number' →
    ∃ target' fields' signature', other.unalias number' = .ok target' ∧
      other.shapeAt target' = .ok (.struct name fields' signature')) resolves
  · intro number' term means means'
    obtain ⟨fields', signature', _, isStruct', _⟩ :=
      twins.struct_shared isStruct (named means means' ⟨_, isStruct, rfl⟩)
    exact ⟨number', fields', signature', TypeStore.unalias_of_not_alias isStruct' rfl, isStruct'⟩
  · intro outer declared inner isAlias _ induction number' term means means'
    obtain ⟨inner', innerTerm, isAlias', innerMeans, innerMeans'⟩ :=
      twins.alias_shared isAlias (named means means' ⟨_, isAlias, rfl⟩)
    have below := twins.otherOrdered.downward _ _ isAlias' rfl inner' List.mem_cons_self
    rw [TypeStore.unalias_alias isAlias' below]
    exact induction innerMeans innerMeans'

/-- What a struct holds, its counterpart holds under another number. -/
theorem held (twins : Twins store other) {number number' target : TypeNumber}
    (held : store.HoldsStruct number target) {name : String} (named : store.Named name number)
    (named' : other.Named name number') :
    ∃ target', other.HoldsStruct number' target' ∧
      ∀ codes, store.Flattens [target] codes ↔ other.Flattens [target'] codes := by
  obtain ⟨_, fields, _, field, inner, _, _, isStruct, member, resolves, isInner⟩ := held
  obtain ⟨shape, isShape, hasName⟩ := named
  rw [isStruct] at isShape
  cases isShape
  cases hasName
  obtain ⟨fields', signature', terms, isStruct', fieldsMean, fieldsMean'⟩ :=
    twins.struct_shared isStruct named'
  obtain ⟨term, isTerm, means⟩ := Success.related_of_mem fieldsMean.flip field member
  obtain ⟨field', member', means'⟩ := Success.related_of_mem fieldsMean' term isTerm
  obtain ⟨target', innerFields', innerSignature', resolves', isInner'⟩ :=
    twins.resolves resolves isInner (FieldTerm.Means.type means) means'.type
  refine ⟨target', ⟨name, fields', signature', field', inner, innerFields', innerSignature',
    isStruct', member', resolves', isInner'⟩, ?_⟩
  intro codes
  constructor
  · exact twins.struct_flattens isInner isInner'
  · exact twins.symm.struct_flattens isInner' isInner

end Twins

end CBackend.Description
