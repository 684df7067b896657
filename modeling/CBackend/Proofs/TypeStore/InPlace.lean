import CBackend.Proofs.TypeStore.Growth

/-!
# Stores that are changed in place

An operation that gives a new store or fails cannot leave a store half
changed.  An operation that changes its store in place can: whatever it wrote
before it failed stays written.  The operations below are of this second
kind.  A struct is announced and then gets its fields one after the other,
and nothing is taken back.

They leave what the operations of the first kind give, and on failure the
store as it was.  Only a struct with fields could be left half filled, and it
never is: nothing embeds a struct that was just announced, so none of its
fields is refused.
-/

namespace CBackend.TypeStore

/-- A computation on a store that is changed in place. -/
abbrev InPlace := ExceptT StoreError (StateM TypeStore)

/-- What is left of a computation that gives a new store or fails: the store
that it gives, or else the old one.  `leave` says what it gives. -/
def settled (store : TypeStore) (leave : γ → α × TypeStore) :
    Except StoreError γ → Except StoreError α × TypeStore
  | .ok given => (.ok (leave given).1, (leave given).2)
  | .error cause => (.error cause, store)

namespace InPlace

def ask (query : TypeStore → Except StoreError α) : InPlace α := fun store => (query store, store)

def push (shape : Shape) : InPlace TypeNumber := fun store =>
  (.ok store.size, (store.append shape).2)

def write (number : TypeNumber) (shape : Shape) : InPlace Unit := fun store =>
  (.ok (), store.replace number shape)

/-- Puts a shape at the end if its name, supposing it has one, is free. -/
def pushNamed (shape : Shape) : InPlace TypeNumber := do
  if let some name := shape.name? then
    if (← ask fun store => return store.find? name).isSome then
      throw (.nameTaken name)
  push shape

def intern (code : BasicCode) : InPlace TypeNumber := do
  match ← ask fun store => return store.shapes.findIdx? (· = .basic code) with
  | some number => return number
  | none => push (.basic code)

def announce (name : String) : InPlace TypeNumber := pushNamed (.struct name [] [])

/-- Gives a struct one more field.  The layout is written before the field. -/
def extend (number : TypeNumber) (field : Field) : InPlace Unit := do
  match ← ask (·.shapeAt number) with
  | .struct name fields signature =>
    if fields.any (·.name == field.name) then
      throw (.fieldTaken name field.name)
    let _ ← ask (·.shapeAt field.type)
    if let some walk ← ask (·.walk? field.type number) then
      throw (.selfEmbedding name field.name walk)
    let added ← ask (·.signature field.type)
    write number (.struct name fields (signature ++ added))
    write number (.struct name (fields ++ [field]) (signature ++ added))
  | other => throw (.notStruct number other.word)

/-- Announces a struct and gives it its fields. -/
def build (name : String) (fields : List Field) : InPlace TypeNumber := do
  let number ← announce name
  fields.forM (extend number)
  return number

def insert (shape : Shape) : InPlace TypeNumber := do
  shape.mentions.forM fun number => do let _ ← ask (·.shapeAt number)
  match shape with
  | .struct name fields _ =>
    if let some field := firstRepeat [] (fields.map Field.name) then
      throw (.fieldTaken name field)
    build name fields
  | .basic code => intern code
  | other => pushNamed other

section Steps

variable {step : InPlace α} {next : α → InPlace β} {store between : TypeStore}

theorem bind_ok {value : α} (success : step store = (.ok value, between)) :
    (step >>= next) store = next value between := by
  show ExceptT.bindCont next (step store).1 (step store).2 = _
  rw [success]
  rfl

theorem bind_error {cause : StoreError} (failure : step store = (.error cause, between)) :
    (step >>= next) store = (.error cause, between) := by
  show ExceptT.bindCont next (step store).1 (step store).2 = _
  rw [failure]
  rfl

/-- A step that changes nothing may stand in front of what is settled. -/
theorem settled_bind {answer : Except StoreError α} {rest : α → Except StoreError γ}
    {leave : γ → β × TypeStore} (asks : step store = (answer, store))
    (later : ∀ value, answer = .ok value → next value store = settled store leave (rest value)) :
    (step >>= next) store = settled store leave (answer >>= rest) := by
  cases answer with
  | ok value => exact (bind_ok asks).trans (later value rfl)
  | error cause => exact bind_error asks

theorem settled_same (store : TypeStore) (answer : Except StoreError α) :
    settled store (·, store) answer = (answer, store) := by
  cases answer <;> rfl

theorem discard_bind {answer : Except StoreError α} {rest : Unit → Except StoreError γ} :
    (discard answer >>= rest) = answer >>= fun _ => rest () := by
  cases answer <;> rfl

end Steps

theorem pushNamed_eq (store : TypeStore) (shape : Shape) :
    pushNamed shape store = settled store id (store.appendNamed shape) := by
  unfold pushNamed appendNamed
  cases shape.name? with
  | none => rfl
  | some name =>
      dsimp only
      refine (bind_ok rfl).trans ?_
      split <;> rfl

theorem intern_eq (store : TypeStore) (code : BasicCode) :
    intern code store = settled store id (.ok (store.internBasic code)) := by
  unfold intern internBasic
  refine (bind_ok rfl).trans ?_
  cases store.shapes.findIdx? (· = .basic code) <;> rfl

theorem extend_eq (store : TypeStore) (number : TypeNumber) (field : Field) :
    extend number field store =
      settled store (fun next => ((), next)) (store.extend number field) := by
  refine settled_bind rfl ?_
  intro shape isShape
  cases shape with
  | struct name fields signature =>
      dsimp only
      by_cases taken : fields.any (·.name == field.name) = true
      · rw [if_pos taken, if_pos taken]
        rfl
      · rw [if_neg taken, if_neg taken, discard_bind]
        refine settled_bind rfl fun _ _ => settled_bind rfl ?_
        intro walk _
        cases walk with
        | some names => rfl
        | none =>
            refine settled_bind rfl ?_
            intro added _
            have rewritten : ∀ first last, (store.replace number first).replace number last =
                store.replace number last := by
              intro first last
              simp [replace]
            exact congrArg (Except.ok (), ·) (rewritten _ _)
  | basic _ => rfl
  | pointer _ _ => rfl
  | array _ _ => rfl
  | function _ => rfl
  | trait _ _ => rfl
  | aliasOf _ _ => rfl

theorem extendAll_eq {store filled : TypeStore} {number : TypeNumber} {fields : List Field}
    (success : store.fill number fields = .ok filled) :
    (fields.forM (extend number) : InPlace Unit) store = (.ok (), filled) := by
  induction fields generalizing store with
  | nil =>
      cases success
      rfl
  | cons field fields induction =>
      rw [fill, List.foldlM_cons] at success
      obtain ⟨next, extended, success⟩ := Success.bind_iff.mp success
      have first := extend_eq store number field
      rw [extended] at first
      exact (bind_ok first).trans (induction success)

theorem lookups_eq (store : TypeStore) (numbers : List TypeNumber) :
    (numbers.forM (fun number => do let _ ← ask (·.shapeAt number)) : InPlace Unit) store =
      (numbers.forM fun number => discard (store.shapeAt number), store) := by
  induction numbers with
  | nil => rfl
  | cons number numbers induction =>
      rw [List.forM, List.forM, discard_bind, ← settled_same store, bind_assoc]
      refine settled_bind rfl fun _ _ => ?_
      exact induction.trans (settled_same store _).symm

/-- A struct whose fields exist and have distinct names gets all of them once
it is announced, so it is never left half filled. -/
theorem build_eq {store : TypeStore} (ordered : store.Ordered) (name : String)
    {fields : List Field} (distinct : firstRepeat [] (fields.map Field.name) = none)
    (present : ∀ field ∈ fields, field.type < store.size) :
    build name fields store = settled store id (store.insertStruct name fields) := by
  have first : announce name store = settled store id (store.announce name) :=
    pushNamed_eq store (.struct name [] [])
  rw [insertStruct, distinct]
  cases announced : store.announce name with
  | error cause =>
      rw [announced] at first
      exact bind_error first
  | ok result =>
      obtain ⟨number, next⟩ := result
      rw [announced] at first
      obtain ⟨filled, success⟩ := ordered.fillsAnnounced name fields number next distinct present
        announced
      calc build name fields store
          = (.ok number, filled) := (bind_ok first).trans (bind_ok (extendAll_eq success))
        _ = settled store id (next.fill number fields >>= fun filled => pure (number, filled)) := by
            rw [success]
            rfl

/-- An insertion in place leaves what the insertion gives, and the store as it
was if it fails. -/
theorem insert_eq {store : TypeStore} (ordered : store.Ordered) (shape : Shape) :
    insert shape store = settled store id (store.insert shape) := by
  refine settled_bind (lookups_eq store shape.mentions) ?_
  intro _ found
  have present := forM_present found
  cases shape with
  | struct name fields signature =>
      dsimp only
      cases repeated : firstRepeat [] (fields.map Field.name) with
      | some field =>
          rw [insertStruct, repeated]
          rfl
      | none =>
          apply build_eq ordered name repeated
          intro field member
          exact present field.type (List.mem_map_of_mem member)
  | basic code => exact intern_eq store code
  | pointer _ _ => exact pushNamed_eq store _
  | array _ _ => exact pushNamed_eq store _
  | function _ => exact pushNamed_eq store _
  | trait _ _ => exact pushNamed_eq store _
  | aliasOf _ _ => exact pushNamed_eq store _

end InPlace

/-- An operation that changes its store in place. -/
def Operation.inPlace : Operation → InPlace Unit
  | .insert shape => do let _ ← InPlace.insert shape
  | .intern code => do let _ ← InPlace.intern code
  | .announce name => do let _ ← InPlace.announce name
  | .extend struct field => InPlace.extend struct field

theorem Ordered.inPlace_eq {store : TypeStore} (ordered : store.Ordered) (operation : Operation) :
    (operation.inPlace store).2 = store.after operation := by
  have ends : ∀ {operation : Operation} {action : InPlace TypeNumber}
      {result : Except StoreError (TypeNumber × TypeStore)},
      action store = settled store id result →
        operation.run store = (do return (← result).2) →
          ((do let _ ← action : InPlace Unit) store).2 = store.after operation := by
    intro operation action result left runs
    rw [TypeStore.after, runs]
    cases result with
    | ok added => exact congrArg Prod.snd (InPlace.bind_ok left)
    | error cause => exact congrArg Prod.snd (InPlace.bind_error left)
  cases operation with
  | insert shape => exact ends (InPlace.insert_eq ordered shape) rfl
  | intern code => exact ends (InPlace.intern_eq store code) rfl
  | announce name => exact ends (InPlace.pushNamed_eq store (.struct name [] [])) rfl
  | extend struct field =>
      refine (congrArg Prod.snd (InPlace.extend_eq store struct field)).trans ?_
      rw [TypeStore.after, Operation.run]
      cases store.extend struct field <;> rfl

theorem Ordered.run_inPlace_eq {store : TypeStore} (ordered : store.Ordered)
    (operations : List Operation) :
    operations.foldl (fun store operation => (operation.inPlace store).2) store =
      operations.foldl TypeStore.after store := by
  induction operations generalizing store with
  | nil => rfl
  | cons operation operations induction =>
      rw [List.foldl_cons, List.foldl_cons, ordered.inPlace_eq operation]
      exact induction (ordered.after operation)

theorem announce_ok_iff {store : TypeStore} {name : String} {result : TypeNumber × TypeStore} :
    store.announce name = .ok result ↔
      store.find? name = none ∧ result = store.append (.struct name [] []) := by
  show (if (store.find? name).isSome then Except.error (StoreError.nameTaken name)
    else .ok (store.append (.struct name [] []))) = _ ↔ _
  cases store.find? name with
  | some number => simp
  | none => simp [eq_comm]

/-- A struct is inserted exactly if the types of its fields exist, their names
are distinct and its own name is free. -/
theorem Ordered.insert_struct_iff {store : TypeStore} (ordered : store.Ordered) {name : String}
    {fields : List Field} {signature : Signature} :
    (∃ result, store.insert (.struct name fields signature) = .ok result) ↔
      (∀ field ∈ fields, field.type < store.size) ∧ (fields.map Field.name).Nodup ∧
        store.find? name = none := by
  constructor
  · rintro ⟨result, success⟩
    obtain ⟨_, found, success⟩ := Success.bind_iff.mp success
    obtain ⟨unrepeated, announced, isAnnounced, _⟩ := insertStruct_success_iff.mp success
    refine ⟨?_, (firstRepeat_eq_none_iff.mp unrepeated).1, (announce_ok_iff.mp isAnnounced).1⟩
    intro field member
    exact forM_present found field.type (List.mem_map_of_mem member)
  · rintro ⟨present, distinct, free⟩
    have unrepeated : firstRepeat [] (fields.map Field.name) = none :=
      firstRepeat_eq_none_iff.mpr ⟨distinct, fun _ _ => List.not_mem_nil⟩
    have announced := announce_ok_iff.mpr ⟨free, rfl⟩
    obtain ⟨filled, isFilled⟩ := ordered.fillsAnnounced name fields _ _ unrepeated present announced
    have mentioned : ∀ number ∈ fields.map Field.type, number < store.size := by
      intro number member
      obtain ⟨field, isField, rfl⟩ := List.mem_map.mp member
      exact present field isField
    exact ⟨(store.size, filled), Success.bind_iff.mpr ⟨_, forM_present_iff.mpr mentioned,
      insertStruct_success_iff.mpr ⟨unrepeated, _, announced, isFilled⟩⟩⟩

/-- Whatever was done to a store, in place or not, an insertion in place that
fails leaves it as it was.  A struct is inserted exactly if it can be built by
hand, which is to announce it and then to give it its fields: the types of the
fields exist, their names are distinct and the name of the struct is free.
Then no field is refused, and both ways lead to the same number and the same
store, whichever signature is given. -/
theorem insertion_is_atomic (pointerSize : PointerSize) (operations : List Operation) :
    let store := history pointerSize operations
    operations.foldl (fun store operation => (operation.inPlace store).2) (empty pointerSize) =
        store ∧
      (∀ shape, InPlace.insert shape store = settled store id (store.insert shape)) ∧
      (∀ shape cause left, InPlace.insert shape store = (.error cause, left) → left = store) ∧
      ∀ name fields signature,
        ((∃ result, store.insert (.struct name fields signature) = .ok result) ↔
          (∀ field ∈ fields, field.type < store.size) ∧ (fields.map Field.name).Nodup ∧
            store.find? name = none) ∧
        ∀ number next, store.insert (.struct name fields signature) = .ok (number, next) →
          InPlace.build name fields store = (.ok number, next) ∧
            ∃ announced, store.announce name = .ok (number, announced) ∧
              announced.fill number fields = .ok next := by
  intro store
  have ordered : store.Ordered := history_ordered pointerSize operations
  refine ⟨(empty_ordered pointerSize).run_inPlace_eq operations, InPlace.insert_eq ordered, ?_, ?_⟩
  · intro shape cause left failed
    rw [InPlace.insert_eq ordered shape] at failed
    cases inserted : store.insert shape with
    | ok result =>
        rw [inserted] at failed
        cases failed
    | error cause =>
        rw [inserted] at failed
        cases failed
        rfl
  · intro name fields signature
    refine ⟨ordered.insert_struct_iff, ?_⟩
    intro number next success
    obtain ⟨present, _, _⟩ := ordered.insert_struct_iff.mp ⟨_, success⟩
    obtain ⟨_, _, inserted⟩ := Success.bind_iff.mp success
    obtain ⟨unrepeated, announced, isAnnounced, isFilled⟩ := insertStruct_success_iff.mp inserted
    refine ⟨?_, announced, isAnnounced, isFilled⟩
    rw [InPlace.build_eq ordered name unrepeated present]
    exact congrArg (settled store id) inserted

end CBackend.TypeStore
