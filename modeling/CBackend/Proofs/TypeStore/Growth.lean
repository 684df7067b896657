import Mathlib.Data.List.Nodup
import CBackend.Proofs.TypeStore.History

/-!
# Growth of a store

Every operation is a sequence of small steps, each of which puts a shape
with a free name at the end or gives a struct one more field.  So types are
never removed, no name is given twice, and a name once given is found at the
same place ever after.
-/

namespace CBackend

/-- What may become of a type: a struct may get further fields, and
everything else stays as it is. -/
inductive Shape.Grows : Shape → Shape → Prop where
  | same (shape : Shape) : Shape.Grows shape shape
  | fields {name : String} {fields : List Field} {signature : Signature}
      (more : List Field) (added : Signature) :
      Shape.Grows (.struct name fields signature)
        (.struct name (fields ++ more) (signature ++ added))

namespace Shape.Grows

variable {before between after : Shape}

theorem trans (first : before.Grows between) (second : between.Grows after) :
    before.Grows after := by
  cases first with
  | same => exact second
  | fields more added =>
      cases second with
      | same => exact .fields more added
      | fields further extra =>
          rw [List.append_assoc, List.append_assoc]
          exact .fields (more ++ further) (added ++ extra)

theorem name?_eq (grows : before.Grows after) : after.name? = before.name? := by
  cases grows with
  | same => rfl
  | fields _ _ => rfl

theorem eq_of_not_struct (grows : before.Grows after) (noStruct : before.isStruct = false) :
    after = before := by
  cases grows with
  | same => rfl
  | fields _ _ => cases noStruct

end Shape.Grows

section Marks

variable {mark : α → Option β} {items : List α}

/-- An element that is replaced by one of the same mark leaves the marks as
they were. -/
theorem filterMap_set {number : Nat} {before after : α} (isBefore : items[number]? = some before)
    (same : mark after = mark before) :
    (items.set number after).filterMap mark = items.filterMap mark := by
  induction items generalizing number with
  | nil => rfl
  | cons item items induction =>
      cases number with
      | zero =>
          cases isBefore
          simp [List.filterMap_cons, same]
      | succ number =>
          rw [List.getElem?_cons_succ] at isBefore
          simp [List.filterMap_cons, induction isBefore]

/-- An element that is replaced by one that passes the same tests leaves what
a search finds as it was. -/
theorem findIdx?_set {test : α → Bool} {number : Nat} {before after : α}
    (isBefore : items[number]? = some before) (same : test after = test before) :
    (items.set number after).findIdx? test = items.findIdx? test := by
  induction items generalizing number with
  | nil => rfl
  | cons item items induction =>
      cases number with
      | zero =>
          cases isBefore
          simp [List.findIdx?_cons, same]
      | succ number =>
          rw [List.getElem?_cons_succ] at isBefore
          simp [List.findIdx?_cons, induction isBefore]

/-- When marks are distinct, a mark belongs to one position only. -/
theorem position_unique (distinct : (items.filterMap mark).Nodup) {first second : Nat}
    {left right : α} {shared : β} (isLeft : items[first]? = some left)
    (leftMark : mark left = some shared) (isRight : items[second]? = some right)
    (rightMark : mark right = some shared) : first = second := by
  have apart := List.pairwise_filterMap.mp distinct
  rw [List.pairwise_iff_getElem] at apart
  obtain ⟨inside, rfl⟩ := List.getElem?_eq_some_iff.mp isLeft
  obtain ⟨otherInside, rfl⟩ := List.getElem?_eq_some_iff.mp isRight
  by_contra different
  rcases Nat.lt_or_gt_of_ne different with before | after
  · exact apart _ _ inside otherInside before shared leftMark shared rightMark rfl
  · exact apart _ _ otherInside inside after shared rightMark shared leftMark rfl

/-- When marks are distinct, the search for a mark finds the element that has
it. -/
theorem findIdx?_mark_iff [DecidableEq β] (distinct : (items.filterMap mark).Nodup) {shared : β}
    {number : Nat} :
    items.findIdx? (fun item => mark item = some shared) = some number ↔
      ∃ item, items[number]? = some item ∧ mark item = some shared := by
  have found : ∀ {other}, items.findIdx? (fun item => mark item = some shared) = some other →
      ∃ item, items[other]? = some item ∧ mark item = some shared := by
    intro other isFound
    obtain ⟨inside, holds, _⟩ := List.findIdx?_eq_some_iff_getElem.mp isFound
    exact ⟨_, List.getElem?_eq_getElem inside, by simpa using holds⟩
  refine ⟨found, ?_⟩
  rintro ⟨item, isItem, itemMark⟩
  cases isFound : items.findIdx? (fun item => mark item = some shared) with
  | none =>
      have unmarked := List.findIdx?_eq_none_iff.mp isFound item (List.mem_of_getElem? isItem)
      simp [itemMark] at unmarked
  | some other =>
      obtain ⟨first, isFirst, firstMark⟩ := found isFound
      rw [position_unique distinct isFirst firstMark isItem itemMark]

end Marks

namespace TypeStore

open Relation (ReflTransGen)

inductive Step (store : TypeStore) : TypeStore → Prop where
  | append (shape : Shape) (free : ∀ name ∈ shape.name?, store.find? name = none) :
      Step store (store.append shape).2
  | extend {number : TypeNumber} {field : Field} {next : TypeStore}
      (success : store.extend number field = .ok next) : Step store next

/-- What every small step keeps, every operation keeps. -/
theorem after_keeps {property : TypeStore → Prop}
    (keeps : ∀ {store next : TypeStore}, store.Step next → property store → property next)
    {store : TypeStore} (holds : property store) (operation : Operation) :
    property (store.after operation) := by
  refine after_induction property ?_ ?_ holds
  · intro shape _ accepts
    exact keeps (.append shape accepts.free) holds
  · intro store next number field success before
    exact keeps (.extend success) before

theorem Step.size_le {store next : TypeStore} (step : store.Step next) :
    store.size ≤ next.size := by
  cases step with
  | append shape _ =>
      rw [size_append]
      exact Nat.le_succ _
  | extend success =>
      obtain ⟨_, _, _, _, _, _, _, _, _, rfl⟩ := extend_success_iff.mp success
      exact Nat.le_of_eq size_replace.symm

theorem after_size_le (store : TypeStore) (operation : Operation) :
    store.size ≤ (store.after operation).size :=
  after_keeps (fun step reached => Nat.le_trans reached step.size_le)
    (Nat.le_refl store.size) operation

theorem Ordered.walk?_total {store : TypeStore} (ordered : store.Ordered)
    {source : TypeNumber} (inside : source < store.size) (target : TypeNumber) :
    ∃ walk, store.walk? source target = .ok walk :=
  TypeStore.walk?_total ordered.embedsExisting inside target

theorem Ordered.signature_total {store : TypeStore} (ordered : store.Ordered)
    {number : TypeNumber} (inside : number < store.size) :
    ∃ signature, store.signature number = .ok signature := by
  have answers := ordered.signature_answers number
  rwa [Answers, if_pos inside] at answers

/-- A field whose type exists is refused for its name or for its type. -/
theorem Ordered.extend_refuses {store : TypeStore} (ordered : store.Ordered)
    {number : TypeNumber} {name : String} {fields : List Field} {signature : Signature}
    (isStruct : store.shapeAt number = .ok (.struct name fields signature)) {field : Field}
    (inside : field.type < store.size) {cause : StoreError}
    (failure : store.extend number field = .error cause) :
    cause = .fieldTaken name field.name ∨ ∃ walk, cause = .selfEmbedding name field.name walk := by
  obtain ⟨shape, isShape⟩ := shapeAt_of_lt inside
  obtain ⟨walk, searched⟩ := ordered.walk?_total inside number
  obtain ⟨added, laidOut⟩ := ordered.signature_total inside
  unfold TypeStore.extend at failure
  rw [isStruct, isShape, searched, laidOut] at failure
  dsimp only [bind, Except.bind] at failure
  split at failure
  · cases failure
    exact .inl rfl
  · cases walk with
    | none => cases failure
    | some names =>
        cases failure
        exact .inr ⟨names, rfl⟩

/-- A struct refuses a field for two reasons only: the name of the field is
taken, or its type embeds the struct. -/
theorem Ordered.extend_cases {store : TypeStore} (ordered : store.Ordered)
    {number : TypeNumber} {name : String} {fields : List Field} {signature : Signature}
    (isStruct : store.shapeAt number = .ok (.struct name fields signature)) {field : Field}
    (inside : field.type < store.size) :
    (field.name ∉ fields.map Field.name ∧ ∃ next, store.extend number field = .ok next) ∨
      (field.name ∈ fields.map Field.name ∨ ReflTransGen store.Embeds field.type number) ∧
        ∃ cause, store.extend number field = .error cause := by
  cases ran : store.extend number field with
  | ok next =>
      obtain ⟨_, _, _, _, isFound, fresh, _⟩ := extend_success_iff.mp ran
      rw [isStruct] at isFound
      cases isFound
      refine .inl ⟨?_, next, rfl⟩
      intro taken
      obtain ⟨other, member, same⟩ := List.mem_map.mp taken
      exact List.any_eq_false.mp fresh other member (beq_iff_eq.mpr same)
  | error cause =>
      refine .inr ⟨?_, cause, rfl⟩
      by_contra neither
      rw [not_or] at neither
      obtain ⟨fresh, apart⟩ := neither
      have unused : fields.any (·.name == field.name) = false := by
        rw [List.any_eq_false]
        intro other member same
        exact fresh (List.mem_map.mpr ⟨other, member, beq_iff_eq.mp same⟩)
      obtain ⟨walk, searched⟩ := ordered.walk?_total inside number
      obtain ⟨added, laidOut⟩ := ordered.signature_total inside
      cases walk with
      | none =>
          have success := extend_success_iff.mpr ⟨name, fields, signature, added, isStruct, unused,
            inside, searched, laidOut, rfl⟩
          rw [ran] at success
          cases success
      | some walk => exact apart (walk?_some searched).1

/-- The names of structs, traits and aliases, in order. -/
def names (store : TypeStore) : List String := store.shapes.filterMap Shape.name?

theorem find?_none_iff {store : TypeStore} {name : String} :
    store.find? name = none ↔ name ∉ store.names := by
  simp [find?, names, List.findIdx?_eq_none_iff]

/-- A type that is replaced by one of the same name leaves the names as they
were. -/
theorem names_replace {store : TypeStore} {number : TypeNumber} {before : Shape}
    (isBefore : store.shapeAt number = .ok before) {shape : Shape}
    (same : shape.name? = before.name?) :
    (store.replace number shape).names = store.names :=
  filterMap_set (shapeAt_ok_iff.mp isBefore) same

theorem Step.names_nodup {store next : TypeStore} (step : store.Step next)
    (distinct : store.names.Nodup) : next.names.Nodup := by
  cases step with
  | append shape free =>
      rw [names, TypeStore.append, List.filterMap_append, List.nodup_append]
      refine ⟨distinct, ?_, ?_⟩
      · cases named : shape.name? with
        | none => simp [named]
        | some name => simp [named]
      · intro name old other new same
        obtain ⟨_, member, named⟩ := List.mem_filterMap.mp new
        rw [List.mem_singleton.mp member] at named
        rw [same] at old
        exact find?_none_iff.mp (free other named) old
  | extend success =>
      obtain ⟨name, fields, signature, added, isStruct, _, _, _, _, rfl⟩ :=
        extend_success_iff.mp success
      refine (congrArg List.Nodup (names_replace isStruct ?_)).mpr distinct
      rfl

theorem after_names_nodup {store : TypeStore} (distinct : store.names.Nodup)
    (operation : Operation) : (store.after operation).names.Nodup :=
  after_keeps Step.names_nodup distinct operation

theorem history_names_nodup (pointerSize : PointerSize) (operations : List Operation) :
    (history pointerSize operations).names.Nodup :=
  List.foldlRecOn (motive := fun store => store.names.Nodup) operations after List.nodup_nil
    fun _ distinct operation _ => after_names_nodup distinct operation

theorem Named.mem_names {store : TypeStore} {name : String} {number : TypeNumber}
    (named : store.Named name number) : name ∈ store.names := by
  obtain ⟨shape, isShape, hasName⟩ := named
  apply List.mem_filterMap.mpr
  exact ⟨shape, List.mem_of_getElem? (shapeAt_ok_iff.mp isShape), hasName⟩

/-- When names are distinct, a name belongs to one type only. -/
theorem Named.unique {store : TypeStore} (distinct : store.names.Nodup) {name : String}
    {number other : TypeNumber} (named : store.Named name number)
    (alsoNamed : store.Named name other) : number = other := by
  obtain ⟨shape, isShape, hasName⟩ := named
  obtain ⟨found, isFound, foundName⟩ := alsoNamed
  exact position_unique distinct (shapeAt_ok_iff.mp isShape) hasName
    (shapeAt_ok_iff.mp isFound) foundName

theorem find?_eq_some_iff {store : TypeStore} (distinct : store.names.Nodup) {name : String}
    {number : TypeNumber} : store.find? name = some number ↔ store.Named name number := by
  simp only [Named, shapeAt_ok_iff]
  exact findIdx?_mark_iff distinct

/-- Everything in a store is in the other one too, at the same place and with
the same name. -/
structure Grows (store next : TypeStore) : Prop where
  pointerSize : next.pointerSize = store.pointerSize
  shapes : ∀ number shape, store.shapeAt number = .ok shape →
    ∃ later, next.shapeAt number = .ok later ∧ shape.Grows later

theorem Grows.refl (store : TypeStore) : store.Grows store :=
  ⟨rfl, fun _ shape isShape => ⟨shape, isShape, .same shape⟩⟩

theorem Grows.trans {store between next : TypeStore} (first : store.Grows between)
    (second : between.Grows next) : store.Grows next := by
  refine ⟨second.pointerSize.trans first.pointerSize, ?_⟩
  intro number shape isShape
  obtain ⟨middle, isMiddle, grows⟩ := first.shapes number shape isShape
  obtain ⟨later, isLater, further⟩ := second.shapes number middle isMiddle
  exact ⟨later, isLater, grows.trans further⟩

theorem Grows.keeps {store next : TypeStore} (grows : store.Grows next)
    {number : TypeNumber} {shape : Shape} (isShape : store.shapeAt number = .ok shape)
    (noStruct : shape.isStruct = false) : next.shapeAt number = .ok shape := by
  obtain ⟨later, isLater, becomes⟩ := grows.shapes number shape isShape
  rw [isLater, becomes.eq_of_not_struct noStruct]

theorem Grows.named {store next : TypeStore} (grows : store.Grows next) {name : String}
    {number : TypeNumber} (named : store.Named name number) : next.Named name number := by
  obtain ⟨shape, isShape, hasName⟩ := named
  obtain ⟨later, isLater, becomes⟩ := grows.shapes number shape isShape
  exact ⟨later, isLater, becomes.name?_eq.trans hasName⟩

section Append

variable {store next : TypeStore} {added : List Shape} {number : TypeNumber} {shape : Shape}

theorem keeps_of_append (appended : next.shapes = store.shapes ++ added)
    (isShape : store.shapeAt number = .ok shape) : next.shapeAt number = .ok shape := by
  have inside := lt_of_shapeAt isShape
  rw [shapeAt_ok_iff] at isShape ⊢
  rw [appended, List.getElem?_append_left inside]
  exact isShape

theorem origin_of_append (appended : next.shapes = store.shapes ++ added)
    (isShape : next.shapeAt number = .ok shape) :
    store.shapeAt number = .ok shape ∨ shape ∈ added := by
  rw [shapeAt_ok_iff] at isShape ⊢
  rw [appended] at isShape
  by_cases inside : number < store.shapes.length
  · rw [List.getElem?_append_left inside] at isShape
    exact .inl isShape
  · rw [List.getElem?_append_right (Nat.le_of_not_lt inside)] at isShape
    exact .inr (List.mem_of_getElem? isShape)

theorem grows_of_append (pointerSize : next.pointerSize = store.pointerSize)
    (appended : next.shapes = store.shapes ++ added) : store.Grows next := by
  refine ⟨pointerSize, ?_⟩
  intro number shape isShape
  exact ⟨shape, keeps_of_append appended isShape, .same shape⟩

end Append

theorem shapeAt_replace_self {store : TypeStore} {number : TypeNumber} {before shape : Shape}
    (isBefore : store.shapeAt number = .ok before) :
    (store.replace number shape).shapeAt number = .ok shape :=
  shapeAt_ok_iff.mpr (List.getElem?_set_self (lt_of_shapeAt isBefore))

theorem shapeAt_replace_ne {store : TypeStore} {number other : TypeNumber} {shape : Shape}
    (different : other ≠ number) :
    (store.replace number shape).shapeAt other = store.shapeAt other := by
  rw [shapeAt, shapeAt, replace, List.getElem?_set_ne (Ne.symm different)]

theorem Step.grows {store next : TypeStore} (step : store.Step next) : store.Grows next := by
  cases step with
  | append shape _ => exact grows_of_append rfl rfl
  | @extend number field _ success =>
      obtain ⟨name, fields, signature, added, isStruct, _, _, _, _, rfl⟩ :=
        extend_success_iff.mp success
      refine ⟨rfl, ?_⟩
      intro other shape isShape
      by_cases here : other = number
      · rw [here, isStruct] at isShape
        cases isShape
        rw [here]
        exact ⟨_, shapeAt_replace_self isStruct, .fields [field] added⟩
      · exact ⟨shape, (shapeAt_replace_ne here).trans isShape, .same shape⟩

end TypeStore

end CBackend
