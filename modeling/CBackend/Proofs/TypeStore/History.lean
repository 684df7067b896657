import CBackend.Proofs.TypeStore.Queries

/-!
# Histories of a store

A store comes about from an empty one by operations, each of which may fail.
A failed operation leaves the store as it was.  This holds of structs with
fields too, although they are announced first and filled field by field:
once a struct is announced its fields cannot fail, because nothing embeds it
yet.

What an operation does is said once: it puts at most one shape at the end, and
beyond that it only gives fields to structs.  So every operation keeps a store
ordered, all stores are, and their queries have answers.
-/

namespace CBackend.TypeStore

open Relation (ReflTransGen)

inductive Operation where
  | insert (shape : Shape)
  | intern (code : BasicCode)
  | announce (name : String)
  | extend (struct : TypeNumber) (field : Field)

def Operation.run (store : TypeStore) : Operation → Except StoreError TypeStore
  | .insert shape => return (← store.insert shape).2
  | .intern code => return (store.internBasic code).2
  | .announce name => return (← store.announce name).2
  | .extend struct field => store.extend struct field

/-- The store after an operation, whether it fails or not. -/
def after (store : TypeStore) (operation : Operation) : TypeStore :=
  match operation.run store with
  | .ok next => next
  | .error _ => store

def history (pointerSize : PointerSize) (operations : List Operation) : TypeStore :=
  operations.foldl after (empty pointerSize)

/-- Gives a struct several fields, one after the other. -/
def fill (number : TypeNumber) (fields : List Field) (store : TypeStore) :
    Except StoreError TypeStore :=
  fields.foldlM (fun store field => store.extend number field) store

/-- What an operation puts at the end of a store.  A struct comes without its
fields. -/
def Operation.addition? : Operation → Option Shape
  | .insert (.struct name _ _) | .announce name => some (.struct name [] [])
  | .insert shape => some shape
  | .intern code => some (.basic code)
  | .extend .. => none

/-- A shape may be put at the end: its name is free, its code is new and what
it mentions exists. -/
structure Accepts (store : TypeStore) (shape : Shape) : Prop where
  free : ∀ name ∈ shape.name?, store.find? name = none
  unshared : ∀ code, shape = .basic code → store.shapes.findIdx? (· = .basic code) = none
  present : ∀ mentioned ∈ shape.mentions, mentioned < store.size

/-- A struct that could be announced also gets its fields. -/
def FillsAnnounced (store : TypeStore) : Prop :=
  ∀ name fields number announced, firstRepeat [] (fields.map Field.name) = none →
    (∀ field ∈ fields, field.type < store.size) →
    store.announce name = .ok (number, announced) →
      ∃ filled, announced.fill number fields = .ok filled

section Steps

variable {store : TypeStore}

theorem forM_present {numbers : List TypeNumber} {done : Unit}
    (success : numbers.forM (fun number => discard (store.shapeAt number)) = .ok done) :
    ∀ number ∈ numbers, number < store.size := by
  induction numbers with
  | nil =>
      intro number member
      cases member
  | cons first later induction =>
      rw [List.forM] at success
      obtain ⟨_, found, success⟩ := Success.bind_iff.mp success
      intro number member
      rcases List.mem_cons.mp member with rfl | inLater
      · by_contra outside
        rw [shapeAt_missing (Nat.le_of_not_lt outside)] at found
        cases found
      · exact induction success number inLater

theorem forM_present_iff {numbers : List TypeNumber} :
    numbers.forM (fun number => discard (store.shapeAt number)) = .ok ⟨⟩ ↔
      ∀ number ∈ numbers, number < store.size := by
  constructor
  · exact forM_present
  · intro present
    apply Success.forM_iff.mpr
    intro number member
    obtain ⟨shape, isShape⟩ := shapeAt_of_lt (present number member)
    rw [isShape]
    rfl

theorem appendNamed_success {shape : Shape} {result : TypeNumber × TypeStore}
    (success : store.appendNamed shape = .ok result) : result = store.append shape := by
  unfold appendNamed at success
  split at success
  · cases success
    rfl
  · split at success
    · cases success
    · cases success
      rfl

theorem appendNamed_free {shape : Shape} {result : TypeNumber × TypeStore}
    (success : store.appendNamed shape = .ok result) :
    ∀ name ∈ shape.name?, store.find? name = none := by
  intro name named
  rw [appendNamed, Option.mem_def.mp named] at success
  dsimp only at success
  split at success
  · cases success
  · rename_i absent
    simpa using absent

theorem Ordered.announce {name : String} {result : TypeNumber × TypeStore}
    (ordered : store.Ordered) (success : store.announce name = .ok result) :
    result.2.Ordered := by
  rw [appendNamed_success success]
  apply ordered.append
  intro mentioned member
  cases member

theorem Ordered.internBasic (ordered : store.Ordered) (code : BasicCode) :
    (store.internBasic code).2.Ordered := by
  unfold TypeStore.internBasic
  split
  · exact ordered
  · apply ordered.append
    intro mentioned member
    cases member

theorem fill_keeps {property : TypeStore → Prop}
    (extend : ∀ {store next : TypeStore} {number : TypeNumber} {field : Field},
      store.extend number field = .ok next → property store → property next)
    {number : TypeNumber} {fields : List Field} {filled : TypeStore} (holds : property store)
    (success : store.fill number fields = .ok filled) : property filled := by
  induction fields generalizing store with
  | nil =>
      cases success
      exact holds
  | cons field fields induction =>
      rw [fill, List.foldlM_cons] at success
      obtain ⟨next, extended, success⟩ := Success.bind_iff.mp success
      exact induction (extend extended holds) success

theorem insertStruct_success_iff {name : String} {fields : List Field}
    {result : TypeNumber × TypeStore} :
    store.insertStruct name fields = .ok result ↔
      firstRepeat [] (fields.map Field.name) = none ∧
        ∃ announced, store.announce name = .ok (result.1, announced) ∧
          announced.fill result.1 fields = .ok result.2 := by
  unfold insertStruct
  cases firstRepeat [] (fields.map Field.name) with
  | some field => exact iff_of_false nofun nofun
  | none =>
      constructor
      · intro success
        obtain ⟨⟨number, announced⟩, isAnnounced, success⟩ := Success.bind_iff.mp success
        obtain ⟨filled, isFilled, success⟩ := Success.bind_iff.mp success
        cases success
        exact ⟨rfl, announced, isAnnounced, isFilled⟩
      · rintro ⟨_, announced, isAnnounced, isFilled⟩
        exact Success.bind_iff.mpr ⟨_, isAnnounced, Success.bind_iff.mpr ⟨_, isFilled, rfl⟩⟩

/-- An operation leaves a store as it was, or it puts its addition at the end,
if the store accepts it, and beyond that it only gives fields to structs. -/
theorem after_induction (property : TypeStore → Prop) {operation : Operation}
    (append : ∀ shape ∈ operation.addition?, store.Accepts shape →
      property (store.append shape).2)
    (extend : ∀ {store next : TypeStore} {number : TypeNumber} {field : Field},
      store.extend number field = .ok next → property store → property next)
    (holds : property store) : property (store.after operation) := by
  have named : ∀ {shape : Shape} {result : TypeNumber × TypeStore},
      shape ∈ operation.addition? → (∀ code, shape ≠ .basic code) →
      (∀ mentioned ∈ shape.mentions, mentioned < store.size) →
      store.appendNamed shape = .ok result → property result.2 := by
    intro shape result adds noBasic present success
    rw [appendNamed_success success]
    apply append shape adds
    exact ⟨appendNamed_free success, fun code isBasic => absurd isBasic (noBasic code), present⟩
  have interned : ∀ {code : BasicCode}, .basic code ∈ operation.addition? →
      property (store.internBasic code).2 := by
    intro code adds
    unfold internBasic
    split
    · exact holds
    · rename_i absent
      apply append _ adds
      refine ⟨nofun, ?_, nofun⟩
      intro other same
      cases same
      exact absent
  unfold after
  cases ran : operation.run store with
  | error cause => exact holds
  | ok next =>
      cases operation with
      | insert shape =>
          obtain ⟨result, success, same⟩ := Success.bind_iff.mp ran
          cases same
          obtain ⟨_, found, success⟩ := Success.bind_iff.mp success
          have present := forM_present found
          cases shape with
          | struct name fields signature =>
              obtain ⟨_, announced, isAnnounced, isFilled⟩ := insertStruct_success_iff.mp success
              exact fill_keeps extend (named rfl nofun nofun isAnnounced) isFilled
          | basic code =>
              cases success
              exact interned rfl
          | pointer _ _ => exact named rfl nofun present success
          | array _ _ => exact named rfl nofun present success
          | function _ => exact named rfl nofun present success
          | trait _ _ => exact named rfl nofun present success
          | aliasOf _ _ => exact named rfl nofun present success
      | intern code =>
          cases ran
          exact interned rfl
      | announce name =>
          obtain ⟨result, success, same⟩ := Success.bind_iff.mp ran
          cases same
          exact named rfl nofun nofun success
      | extend struct field => exact extend ran holds

theorem Ordered.after (ordered : store.Ordered) (operation : Operation) :
    (store.after operation).Ordered := by
  refine after_induction Ordered ?_ ?_ ordered
  · intro shape _ accepts
    exact ordered.append accepts.present
  · intro store next number field success before
    exact before.extend success

theorem history_ordered (pointerSize : PointerSize) (operations : List Operation) :
    (history pointerSize operations).Ordered := by
  have run : ∀ store : TypeStore, store.Ordered →
      (operations.foldl TypeStore.after store).Ordered := by
    induction operations with
    | nil =>
        intro store ordered
        exact ordered
    | cons operation operations induction =>
        intro store ordered
        exact induction _ (ordered.after operation)
  exact run _ (empty_ordered pointerSize)

end Steps

theorem firstRepeat_eq_none_iff [DecidableEq α] {seen items : List α} :
    firstRepeat seen items = none ↔ items.Nodup ∧ ∀ item ∈ items, item ∉ seen := by
  induction items generalizing seen with
  | nil => simp [firstRepeat]
  | cons item items induction =>
      by_cases repeated : item ∈ seen
      · simp [firstRepeat, repeated]
      · rw [firstRepeat, if_neg repeated, induction, List.nodup_cons, List.forall_mem_cons]
        constructor
        · rintro ⟨distinct, unseen⟩
          refine ⟨⟨fun again => unseen item again List.mem_cons_self, distinct⟩, repeated, ?_⟩
          intro other member old
          exact unseen other member (List.mem_cons_of_mem _ old)
        · rintro ⟨⟨unrepeated, distinct⟩, _, unseen⟩
          refine ⟨distinct, ?_⟩
          intro other member seenNow
          rcases List.mem_cons.mp seenNow with rfl | before
          · exact unrepeated member
          · exact unseen other member before

/-- A struct that is being filled: nothing embeds it, and its fields so far
have the given names. -/
structure Filling (store : TypeStore) (number : TypeNumber) (taken : List String) :
    Prop where
  ordered : store.Ordered
  struct : ∃ name fields signature,
    store.shapeAt number = .ok (.struct name fields signature) ∧
      fields.map Field.name = taken
  unembedded : ∀ outer, ¬ store.Embeds outer number

section Filling

variable {store : TypeStore} {number : TypeNumber} {taken : List String}

theorem announce_filling {name : String} {announced : TypeStore}
    (ordered : store.Ordered)
    (success : store.announce name = .ok (number, announced)) :
    number = store.size ∧ announced.Filling number [] := by
  have appended := appendNamed_success success
  obtain ⟨rfl, rfl⟩ := Prod.mk.inj appended
  refine ⟨rfl, ordered.announce success, ?_, ?_⟩
  · exact ⟨name, [], [], shapeAt_append.mpr (.inr ⟨rfl, rfl⟩), rfl⟩
  · intro outer embeds
    rcases embeds.of_append with old | ⟨_, mentioned⟩
    · exact Nat.lt_irrefl _ (ordered.embedsExisting _ _ old)
    · cases mentioned

/-- The search for a walk to a struct that nothing embeds finds none: its last
step would embed the struct. -/
theorem Filling.walk?_none {source : TypeNumber} (filling : store.Filling number taken)
    (inside : source < store.size) (different : source ≠ number) :
    store.walk? source number = .ok none := by
  obtain ⟨walk, searched⟩ := walk?_total filling.ordered.embedsExisting inside number
  cases walk with
  | none => exact searched
  | some walk =>
      rcases ReflTransGen.cases_tail (walk?_some searched).1 with same | ⟨outer, _, embeds⟩
      · exact absurd same.symm different
      · exact absurd embeds (filling.unembedded outer)

theorem Filling.extend {field : Field} (filling : store.Filling number taken)
    (fresh : field.name ∉ taken) (below : field.type < number) :
    ∃ next, store.extend number field = .ok next ∧
      next.Filling number (taken ++ [field.name]) := by
  obtain ⟨name, fields, signature, isStruct, rfl⟩ := filling.struct
  have inside := lt_of_shapeAt isStruct
  have typeInside := Nat.lt_trans below inside
  have answers := filling.ordered.signature_answers field.type
  rw [Answers, if_pos typeInside] at answers
  obtain ⟨added, laidOut⟩ := answers
  have unused : fields.any (·.name == field.name) = false := by
    rw [List.any_eq_false]
    intro other member same
    exact fresh (List.mem_map.mpr ⟨other, member, beq_iff_eq.mp same⟩)
  have success := extend_success_iff.mpr ⟨name, fields, signature, added, isStruct, unused,
    typeInside, filling.walk?_none typeInside (Nat.ne_of_lt below), laidOut, rfl⟩
  refine ⟨_, success, filling.ordered.extend success, ?_, ?_⟩
  · refine ⟨name, fields ++ [field], signature ++ added, ?_, List.map_append⟩
    rw [shapeAt_ok_iff]
    exact List.getElem?_set_self inside
  · intro outer embeds
    rcases embeds.of_replace isStruct with old | ⟨_, same⟩
    · exact filling.unembedded outer old
    · exact Nat.ne_of_gt below same

theorem Filling.fill {fields : List Field} (filling : store.Filling number taken)
    (distinct : (fields.map Field.name).Nodup)
    (fresh : ∀ name ∈ fields.map Field.name, name ∉ taken)
    (below : ∀ field ∈ fields, field.type < number) :
    ∃ filled, store.fill number fields = .ok filled := by
  induction fields generalizing store taken with
  | nil => exact ⟨store, rfl⟩
  | cons field fields induction =>
      obtain ⟨unrepeated, distinctLater⟩ := List.nodup_cons.mp distinct
      obtain ⟨next, extended, nextFilling⟩ := filling.extend
        (fresh field.name List.mem_cons_self) (below field List.mem_cons_self)
      have freshLater : ∀ name ∈ fields.map Field.name, name ∉ taken ++ [field.name] := by
        intro name member old
        rcases List.mem_append.mp old with earlier | last
        · exact fresh name (List.mem_cons_of_mem _ member) earlier
        · rw [List.mem_singleton.mp last] at member
          exact unrepeated member
      obtain ⟨filled, success⟩ := induction nextFilling distinctLater freshLater
        fun other member => below other (List.mem_cons_of_mem _ member)
      refine ⟨filled, ?_⟩
      rw [TypeStore.fill, List.foldlM_cons]
      exact Success.bind_iff.mpr ⟨next, extended, success⟩

theorem Ordered.fillsAnnounced (ordered : store.Ordered) : store.FillsAnnounced := by
  intro name fields number announced unrepeated present success
  obtain ⟨rfl, filling⟩ := announce_filling ordered success
  obtain ⟨distinct, _⟩ := firstRepeat_eq_none_iff.mp unrepeated
  exact filling.fill distinct (fun _ _ => List.not_mem_nil) present

end Filling

/-- Whatever was done to a store and whichever operations failed, types mention
existing types only and types before them unless they are structs, no type
embeds itself, no struct is left half filled, and every query about a type
succeeds exactly if the type exists. -/
theorem history_sound (pointerSize : PointerSize) (operations : List Operation) :
    (history pointerSize operations).Ordered ∧
    (history pointerSize operations).FillsAnnounced ∧
    ∀ number, let store := history pointerSize operations
      store.Answers number (store.shapeAt number) ∧
      store.Answers number (store.identifier number) ∧
      store.Answers number (store.signature number) ∧
      store.Answers number (store.unalias number) ∧
      store.Answers number (store.embeddedStructs number) ∧
      ∀ target, store.unalias number = .ok target →
        ∃ shape, store.shapeAt target = .ok shape ∧ shape.isAlias = false := by
  have ordered := history_ordered pointerSize operations
  refine ⟨ordered, ordered.fillsAnnounced, ?_⟩
  intro number
  exact ⟨shapeAt_answers number, ordered.identifier_answers number,
    ordered.signature_answers number, ordered.unalias_answers number,
    ordered.embeddedStructs_answers number, fun _ => unalias_not_alias⟩

end CBackend.TypeStore
