import CBackend.TypeStore.Insertion
import CBackend.Proofs.Success
import CBackend.Proofs.TypeStore.Embedding

/-!
# Order in a store

Fields may be added to a struct long after it was announced, so mentions can
point forwards and backwards and form cycles.  Two things stay in order all
the same.  Outside of structs a type mentions only types that came before it,
and no type embeds itself, however far the walk.  An insertion at the end
adds a type that nothing embeds yet; a new field adds one edge, and the
search has shown that it closes no cycle.
-/

namespace CBackend

namespace Shape

def isStruct : Shape → Bool
  | .struct .. => true
  | _ => false

def isAlias : Shape → Bool
  | .aliasOf .. => true
  | _ => false

theorem struct_of_isStruct {shape : Shape} (isAStruct : shape.isStruct = true) :
    ∃ name fields signature, shape = .struct name fields signature := by
  cases shape with
  | struct name fields signature => exact ⟨name, fields, signature, rfl⟩
  | basic _ => cases isAStruct
  | pointer _ _ => cases isAStruct
  | array _ _ => cases isAStruct
  | function _ => cases isAStruct
  | trait _ _ => cases isAStruct
  | aliasOf _ _ => cases isAStruct

theorem embedded_subset_mentions (shape : Shape) :
    shape.embedded ⊆ shape.mentions := by
  cases shape with
  | struct _ _ _ => exact List.Subset.refl _
  | aliasOf _ _ => exact List.Subset.refl _
  | basic _ => exact List.nil_subset _
  | pointer _ _ => exact List.nil_subset _
  | array _ _ => exact List.nil_subset _
  | function _ => exact List.nil_subset _
  | trait _ _ => exact List.nil_subset _

end Shape

namespace TypeStore

open Relation (ReflTransGen TransGen)

structure Ordered (store : TypeStore) : Prop where
  existing : ∀ number shape, store.shapeAt number = .ok shape →
    ∀ mentioned ∈ shape.mentions, mentioned < store.size
  downward : ∀ number shape, store.shapeAt number = .ok shape →
    shape.isStruct = false → ∀ mentioned ∈ shape.mentions, mentioned < number
  acyclic : ∀ number, ¬ TransGen store.Embeds number number

theorem Ordered.embedsExisting {store : TypeStore} (ordered : store.Ordered) :
    store.EmbedsExisting := by
  rintro outer inner ⟨shape, isShape, embedded⟩
  exact ordered.existing outer shape isShape inner
    (shape.embedded_subset_mentions embedded)

theorem empty_ordered (pointerSize : PointerSize) : (empty pointerSize).Ordered := by
  have nothing : ∀ number shape, (empty pointerSize).shapeAt number ≠ .ok shape := by
    intro number shape found
    exact absurd (lt_of_shapeAt found) (Nat.not_lt_zero number)
  refine ⟨?_, ?_, ?_⟩
  · intro number shape found
    exact absurd found (nothing number shape)
  · intro number shape found
    exact absurd found (nothing number shape)
  · intro number cycle
    obtain ⟨_, ⟨shape, found, _⟩, _⟩ := TransGen.head'_iff.mp cycle
    exact nothing number shape found

section Append

variable {store : TypeStore} {shape : Shape}

theorem shapeAt_append {number : TypeNumber} {found : Shape} :
    (store.append shape).2.shapeAt number = .ok found ↔
      store.shapeAt number = .ok found ∨ (number = store.size ∧ found = shape) := by
  rw [shapeAt_ok_iff, shapeAt_ok_iff]
  rcases Nat.lt_trichotomy number store.size with inside | rfl | outside
  · have different : number ≠ store.size := Nat.ne_of_lt inside
    simp [append, List.getElem?_append_left inside, different]
  · simp [append, size, eq_comm]
  · have different : number ≠ store.size := Nat.ne_of_gt outside
    have before : store.shapes[number]? = none :=
      List.getElem?_eq_none (Nat.le_of_lt outside)
    have after : (store.shapes ++ [shape])[number]? = none := by
      apply List.getElem?_eq_none
      rw [List.length_append, List.length_singleton]
      exact outside
    simp [append, before, after, different]

theorem size_append : (store.append shape).2.size = store.size + 1 := by
  simp [append, size]

/-- A type at the end adds only embeddings of its own. -/
theorem Embeds.of_append {outer inner : TypeNumber}
    (embeds : (store.append shape).2.Embeds outer inner) :
    store.Embeds outer inner ∨ (outer = store.size ∧ inner ∈ shape.mentions) := by
  obtain ⟨found, isFound, embedded⟩ := embeds
  rcases shapeAt_append.mp isFound with old | ⟨last, rfl⟩
  · exact .inl ⟨found, old, embedded⟩
  · exact .inr ⟨last, found.embedded_subset_mentions embedded⟩

/-- Nothing embeds a type that was put at the end, so no walk comes back to it,
and a walk from an old type never meets it. -/
theorem Ordered.append (ordered : store.Ordered)
    (present : ∀ mentioned ∈ shape.mentions, mentioned < store.size) :
    (store.append shape).2.Ordered := by
  have target : ∀ outer inner, TransGen (store.append shape).2.Embeds outer inner →
      inner < store.size := by
    intro outer inner walk
    obtain ⟨_, _, embeds⟩ := TransGen.tail'_iff.mp walk
    rcases embeds.of_append with old | ⟨_, mentioned⟩
    · exact ordered.embedsExisting _ _ old
    · exact present inner mentioned
  have old : ∀ outer inner, outer < store.size →
      (store.append shape).2.Embeds outer inner → store.Embeds outer inner := by
    intro outer inner inside embeds
    rcases embeds.of_append with old | ⟨last, _⟩
    · exact old
    · exact absurd last (Nat.ne_of_lt inside)
  have stays : ∀ outer inner, outer < store.size →
      TransGen (store.append shape).2.Embeds outer inner →
        TransGen store.Embeds outer inner := by
    intro outer inner inside walk
    induction walk with
    | single embeds => exact .single (old _ _ inside embeds)
    | tail walk embeds induction =>
        exact .tail induction (old _ _ (target _ _ walk) embeds)
  refine ⟨?_, ?_, ?_⟩
  · intro number found isFound mentioned member
    rw [size_append]
    rcases shapeAt_append.mp isFound with old | ⟨_, rfl⟩
    · exact Nat.lt_succ_of_lt (ordered.existing number found old mentioned member)
    · exact Nat.lt_succ_of_lt (present mentioned member)
  · intro number found isFound noStruct mentioned member
    rcases shapeAt_append.mp isFound with old | ⟨rfl, rfl⟩
    · exact ordered.downward number found old noStruct mentioned member
    · exact present mentioned member
  · intro number cycle
    exact ordered.acyclic number (stays number number (target number number cycle) cycle)

end Append

section Extend

variable {store next : TypeStore} {number : TypeNumber} {field : Field}

/-- A field is added exactly if the struct has none of its name, its type
exists and does not embed the struct. -/
theorem extend_success_iff : store.extend number field = .ok next ↔
    ∃ name fields signature added,
      store.shapeAt number = .ok (.struct name fields signature) ∧
      fields.any (·.name == field.name) = false ∧ field.type < store.size ∧
      store.walk? field.type number = .ok none ∧
      store.signature field.type = .ok added ∧
      next = store.replace number
        (.struct name (fields ++ [field]) (signature ++ added)) := by
  unfold extend
  constructor
  · intro success
    obtain ⟨shape, isShape, success⟩ := Success.bind_iff.mp success
    cases shape with
    | struct name fields signature =>
        dsimp only at success
        split at success
        · cases success
        · rename_i fresh
          obtain ⟨_, present, success⟩ := Success.bind_iff.mp success
          obtain ⟨walk, searched, success⟩ := Success.bind_iff.mp success
          cases walk with
          | some walk => cases success
          | none =>
              obtain ⟨added, laidOut, success⟩ := Success.bind_iff.mp success
              cases success
              refine ⟨name, fields, signature, added, isShape, by simpa using fresh, ?_,
                searched, laidOut, rfl⟩
              by_contra outside
              rw [shapeAt_missing (Nat.le_of_not_lt outside)] at present
              cases present
    | basic _ => cases success
    | pointer _ _ => cases success
    | array _ _ => cases success
    | function _ => cases success
    | trait _ _ => cases success
    | aliasOf _ _ => cases success
  · rintro ⟨name, fields, signature, added, isShape, fresh, inside, searched, laidOut,
      rfl⟩
    obtain ⟨found, isFound⟩ := shapeAt_of_lt inside
    refine Success.bind_iff.mpr ⟨_, isShape, ?_⟩
    dsimp only
    rw [if_neg (Bool.eq_false_iff.mp fresh), isFound, searched, laidOut]
    rfl

theorem shapeAt_replace {other : TypeNumber} {shape found : Shape}
    (isFound : (store.replace number shape).shapeAt other = .ok found) :
    (other = number ∧ found = shape) ∨ store.shapeAt other = .ok found := by
  rw [shapeAt_ok_iff] at isFound ⊢
  by_cases here : other = number
  · left
    obtain ⟨inside, same⟩ := List.getElem?_eq_some_iff.mp isFound
    refine ⟨here, ?_⟩
    rw [← same]
    simp [replace, here]
  · right
    rw [← isFound, replace]
    exact (List.getElem?_set_ne (Ne.symm here)).symm

theorem size_replace {shape : Shape} : (store.replace number shape).size = store.size := by
  simp [replace, size]

/-- A walk along one more edge either does not take it, or reaches its start
and comes from its end. -/
theorem transGen_of_edge {α : Type} {relation extended : α → α → Prop}
    {source target first last : α}
    (edges : ∀ outer inner, extended outer inner →
      relation outer inner ∨ (outer = source ∧ inner = target))
    (walk : TransGen extended first last) :
    TransGen relation first last ∨
      (ReflTransGen relation first source ∧ ReflTransGen relation target last) := by
  induction walk with
  | single edge =>
      rcases edges _ _ edge with old | ⟨rfl, rfl⟩
      · exact .inl (.single old)
      · exact .inr ⟨.refl, .refl⟩
  | tail _ edge induction =>
      rcases edges _ _ edge with old | ⟨rfl, rfl⟩
      · rcases induction with before | ⟨reaches, leaves⟩
        · exact .inl (.tail before old)
        · exact .inr ⟨reaches, .tail leaves old⟩
      · rcases induction with before | ⟨reaches, _⟩
        · exact .inr ⟨before.to_reflTransGen, .refl⟩
        · exact .inr ⟨reaches, .refl⟩

theorem Embeds.of_replace {name : String} {fields : List Field}
    {before after : Signature} {outer inner : TypeNumber}
    (isStruct : store.shapeAt number = .ok (.struct name fields before))
    (embeds : (store.replace number
      (.struct name (fields ++ [field]) after)).Embeds outer inner) :
    store.Embeds outer inner ∨ (outer = number ∧ inner = field.type) := by
  obtain ⟨found, isFound, embedded⟩ := embeds
  rcases shapeAt_replace isFound with ⟨rfl, rfl⟩ | old
  · rw [Shape.embedded, List.map_append] at embedded
    rcases List.mem_append.mp embedded with earlier | last
    · exact .inl ⟨_, isStruct, earlier⟩
    · exact .inr ⟨rfl, List.mem_singleton.mp last⟩
  · exact .inl ⟨found, old, embedded⟩

/-- A new cycle would take the new edge, and so lead from the type of the field
back to the struct along old edges. -/
theorem Ordered.extend (ordered : store.Ordered)
    (success : store.extend number field = .ok next) : next.Ordered := by
  obtain ⟨name, fields, signature, added, isStruct, _, inside, searched, _, rfl⟩ :=
    extend_success_iff.mp success
  refine ⟨?_, ?_, ?_⟩
  · intro other found isFound mentioned member
    rw [size_replace]
    rcases shapeAt_replace isFound with ⟨rfl, rfl⟩ | old
    · rw [Shape.mentions, List.map_append] at member
      rcases List.mem_append.mp member with earlier | last
      · exact ordered.existing _ _ isStruct mentioned earlier
      · rw [List.mem_singleton.mp last]
        exact inside
    · exact ordered.existing other found old mentioned member
  · intro other found isFound noStruct mentioned member
    rcases shapeAt_replace isFound with ⟨rfl, rfl⟩ | old
    · cases noStruct
    · exact ordered.downward other found old noStruct mentioned member
  · intro other cycle
    rcases transGen_of_edge (fun _ _ => Embeds.of_replace isStruct) cycle with
      old | ⟨reaches, leaves⟩
    · exact ordered.acyclic other old
    · exact walk?_none searched (leaves.trans reaches)

end Extend

end TypeStore

end CBackend
