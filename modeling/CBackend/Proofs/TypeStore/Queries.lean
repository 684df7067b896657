import CBackend.Proofs.TypeStore.Order

/-!
# Queries of an ordered store

In an ordered store a query about an existing type has an answer: outside of
structs every descent goes to smaller numbers, and a search by value meets
existing types only.  A query about any other type names it as missing.
-/

namespace CBackend.TypeStore

/-- A query about a type succeeds exactly if the type exists. -/
def Answers (store : TypeStore) (number : TypeNumber) (answer : Except StoreError α) :
    Prop :=
  if number < store.size then ∃ value, answer = .ok value
  else answer = .error (.missing number)

variable {store : TypeStore}

theorem shapeAt_answers (number : TypeNumber) :
    store.Answers number (store.shapeAt number) := by
  unfold Answers
  split
  · rename_i inside
    exact shapeAt_of_lt inside
  · rename_i outside
    exact shapeAt_missing (Nat.le_of_not_lt outside)

/-- A query that begins by looking up its type. -/
theorem answers_bind {number : TypeNumber} {next : Shape → Except StoreError α}
    (succeeds : ∀ shape, store.shapeAt number = .ok shape →
      ∃ value, next shape = .ok value) :
    store.Answers number (store.shapeAt number >>= next) := by
  unfold Answers
  split
  · rename_i inside
    obtain ⟨shape, isShape⟩ := shapeAt_of_lt inside
    rw [isShape]
    exact succeeds shape isShape
  · rename_i outside
    rw [shapeAt_missing (Nat.le_of_not_lt outside)]
    rfl

/-- Outside of structs a descent arrives at types that have an answer. -/
theorem Ordered.descend {number : TypeNumber} {shape : Shape} (ordered : store.Ordered)
    (isShape : store.shapeAt number = .ok shape) (noStruct : shape.isStruct = false)
    {visit : TypeNumber → Except StoreError α}
    (induction : ∀ below < number, store.Answers below (visit below)) :
    ∀ mentioned ∈ shape.mentions,
      ∃ value, descend number (fun below _ => visit below) mentioned = .ok value := by
  intro mentioned member
  have below := ordered.downward number shape isShape noStruct mentioned member
  have answers := induction mentioned below
  rw [Answers, if_pos (ordered.existing number shape isShape mentioned member)] at answers
  rw [TypeStore.descend, dif_pos below]
  exact answers

theorem Ordered.unalias_answers (ordered : store.Ordered) (number : TypeNumber) :
    store.Answers number (store.unalias number) := by
  induction number using Nat.strongRecOn with
  | ind number induction =>
      rw [unalias]
      apply answers_bind
      intro shape isShape
      cases shape with
      | aliasOf name target =>
          exact ordered.descend isShape rfl induction target List.mem_cons_self
      | basic _ => exact ⟨_, rfl⟩
      | pointer _ _ => exact ⟨_, rfl⟩
      | array _ _ => exact ⟨_, rfl⟩
      | struct _ _ _ => exact ⟨_, rfl⟩
      | function _ => exact ⟨_, rfl⟩
      | trait _ _ => exact ⟨_, rfl⟩

/-- What an alias stands for is no alias. -/
theorem unalias_not_alias {number target : TypeNumber}
    (resolves : store.unalias number = .ok target) :
    ∃ shape, store.shapeAt target = .ok shape ∧ shape.isAlias = false := by
  induction number using Nat.strongRecOn with
  | ind number induction =>
      rw [unalias] at resolves
      obtain ⟨shape, isShape, resolves⟩ := Success.bind_iff.mp resolves
      cases shape with
      | aliasOf name inner =>
          dsimp only [TypeStore.descend] at resolves
          split at resolves
          · rename_i below
            exact induction inner below resolves
          · cases resolves
      | basic _ => cases resolves; exact ⟨_, isShape, rfl⟩
      | pointer _ _ => cases resolves; exact ⟨_, isShape, rfl⟩
      | array _ _ => cases resolves; exact ⟨_, isShape, rfl⟩
      | struct _ _ _ => cases resolves; exact ⟨_, isShape, rfl⟩
      | function _ => cases resolves; exact ⟨_, isShape, rfl⟩
      | trait _ _ => cases resolves; exact ⟨_, isShape, rfl⟩

theorem unalias_of_not_alias {number : TypeNumber} {shape : Shape}
    (isShape : store.shapeAt number = .ok shape) (noAlias : shape.isAlias = false) :
    store.unalias number = .ok number := by
  rw [unalias, isShape]
  cases shape with
  | aliasOf _ _ => cases noAlias
  | basic _ => rfl
  | pointer _ _ => rfl
  | array _ _ => rfl
  | struct _ _ _ => rfl
  | function _ => rfl
  | trait _ _ => rfl

theorem unalias_alias {number target : TypeNumber} {name : String}
    (isShape : store.shapeAt number = .ok (.aliasOf name target))
    (below : target < number) : store.unalias number = store.unalias target := by
  rw [unalias, isShape]
  exact dif_pos below

theorem isArray_of_not_alias {number : TypeNumber} {shape : Shape}
    (isShape : store.shapeAt number = .ok shape) (noAlias : shape.isAlias = false) :
    store.isArray number = .ok shape.isArray := by
  rw [isArray, unalias_of_not_alias isShape noAlias]
  exact Success.bind_iff.mpr ⟨number, rfl, Success.bind_iff.mpr ⟨_, isShape, rfl⟩⟩

theorem isArray_alias {number target : TypeNumber} {name : String}
    (isShape : store.shapeAt number = .ok (.aliasOf name target))
    (below : target < number) : store.isArray number = store.isArray target := by
  rw [isArray, unalias_alias isShape below]
  rfl

theorem Ordered.signature_answers (ordered : store.Ordered) (number : TypeNumber) :
    store.Answers number (store.signature number) := by
  induction number using Nat.strongRecOn with
  | ind number induction =>
      rw [signature]
      apply answers_bind
      intro shape isShape
      cases shape with
      | pointer mode pointee =>
          obtain ⟨below, found⟩ := ordered.descend isShape rfl induction pointee
            List.mem_cons_self
          exact ⟨_, Success.bind_iff.mpr ⟨below, found, rfl⟩⟩
      | array element capacity =>
          obtain ⟨below, found⟩ := ordered.descend isShape rfl induction element
            List.mem_cons_self
          exact ⟨_, Success.bind_iff.mpr ⟨below, found, rfl⟩⟩
      | aliasOf name target =>
          exact ordered.descend isShape rfl induction target List.mem_cons_self
      | basic _ => exact ⟨_, rfl⟩
      | struct _ _ _ => exact ⟨_, rfl⟩
      | function _ => exact ⟨_, rfl⟩
      | trait _ _ => exact ⟨_, rfl⟩

theorem Ordered.identifier_answers (ordered : store.Ordered) (number : TypeNumber) :
    store.Answers number (store.identifier number) := by
  induction number using Nat.strongRecOn with
  | ind number induction =>
      rw [identifier]
      apply answers_bind
      intro shape isShape
      cases shape with
      | pointer mode pointee =>
          obtain ⟨below, found⟩ := ordered.descend isShape rfl induction pointee
            List.mem_cons_self
          exact ⟨_, Success.bind_iff.mpr ⟨below, found, rfl⟩⟩
      | array element capacity =>
          obtain ⟨below, found⟩ := ordered.descend isShape rfl induction element
            List.mem_cons_self
          exact ⟨_, Success.bind_iff.mpr ⟨below, found, rfl⟩⟩
      | function type =>
          have visits := ordered.descend isShape rfl induction
          have each : ∀ fields ⊆ type.params ++ type.results,
              ∃ texts, fields.mapM (fun field => TypeStore.descend number
                (fun below _ => store.identifier below) field.type) = .ok texts := by
            intro fields inside
            apply Success.mapM_total
            intro field member
            apply visits
            exact List.mem_map.mpr ⟨field, inside member, rfl⟩
          obtain ⟨params, paramsFound⟩ := each _ (List.subset_append_left _ _)
          obtain ⟨results, resultsFound⟩ := each _ (List.subset_append_right _ _)
          exact ⟨_, Success.bind_iff.mpr ⟨params, paramsFound,
            Success.bind_iff.mpr ⟨results, resultsFound, rfl⟩⟩⟩
      | basic _ => exact ⟨_, rfl⟩
      | struct _ _ _ => exact ⟨_, rfl⟩
      | trait _ _ => exact ⟨_, rfl⟩
      | aliasOf _ _ => exact ⟨_, rfl⟩

theorem Ordered.embeddedStructs_answers (ordered : store.Ordered) (number : TypeNumber) :
    store.Answers number (store.embeddedStructs number) := by
  unfold Answers embeddedStructs
  split
  · rename_i inside
    apply collect_total ordered.embedsExisting
    intro other member
    rw [List.mem_singleton.mp member]
    exact inside
  · rename_i outside
    exact collect_missing List.not_mem_nil (shapeAt_missing (Nat.le_of_not_lt outside))

end CBackend.TypeStore
