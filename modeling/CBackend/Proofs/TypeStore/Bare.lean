import CBackend.TypeStore.Insertion
import CBackend.Proofs.TypeStore.Embedding

/-!
# Stores without layouts

The bare store keeps the types of a store and forgets what their layouts
depend on: the size of a pointer and the stored signatures of structs.
Names, walks, aliases and identifiers are read off the bare store, so they
are the same for all stores that differ only in layouts.
-/

namespace CBackend

/-- A shape without its stored signature. -/
def Shape.bare : Shape → Shape
  | .struct name fields _ => .struct name fields []
  | other => other

namespace Shape

variable (shape : Shape)

@[simp] theorem bare_name? : shape.bare.name? = shape.name? := by cases shape <;> rfl

@[simp] theorem bare_embedded : shape.bare.embedded = shape.embedded := by cases shape <;> rfl

@[simp] theorem bare_enter : shape.bare.enter = shape.enter := by cases shape <;> rfl

@[simp] theorem bare_leave : shape.bare.leave = shape.leave := by cases shape <;> rfl

@[simp] theorem bare_record (recorded : List String) :
    shape.bare.record recorded = shape.record recorded := by
  cases shape <;> rfl

@[simp] theorem bare_isArray : shape.bare.isArray = shape.isArray := by cases shape <;> rfl

end Shape

namespace TypeStore

def bare (store : TypeStore) : TypeStore := ⟨default, store.shapes.map Shape.bare⟩

variable (store : TypeStore)

theorem bare_shapeAt (number : TypeNumber) :
    store.bare.shapeAt number = (store.shapeAt number).map Shape.bare := by
  simp only [shapeAt, bare, List.getElem?_map]
  cases store.shapes[number]? <;> rfl

theorem bare_present (number : TypeNumber) :
    discard (store.bare.shapeAt number) = discard (store.shapeAt number) := by
  rw [bare_shapeAt]
  cases store.shapeAt number <;> rfl

theorem bare_findBasic? (code : BasicCode) : store.bare.shapes.findIdx? (· = .basic code) =
    store.shapes.findIdx? (· = .basic code) := by
  have same : ∀ shape : Shape, shape.bare = .basic code ↔ shape = .basic code := by
    intro shape
    cases shape <;> simp [Shape.bare]
  simp [bare, List.findIdx?_map, Function.comp_def, same]

@[simp] theorem bare_find? (name : String) : store.bare.find? name = store.find? name := by
  simp [find?, bare, List.findIdx?_map, Function.comp_def]

theorem bare_shapeAt_error {number : TypeNumber} {cause : StoreError}
    (missing : store.shapeAt number = .error cause) : store.bare.shapeAt number = .error cause := by
  rw [bare_shapeAt, missing]
  rfl

theorem bare_shapeAt_ok {number : TypeNumber} {shape : Shape}
    (isShape : store.shapeAt number = .ok shape) :
    store.bare.shapeAt number = .ok shape.bare := by
  rw [bare_shapeAt, isShape]
  rfl

theorem bare_search (target : TypeNumber) :
    (∀ number visited path, store.bare.search target number visited path =
      store.search target number visited path) ∧
    ∀ numbers visited path, store.bare.searchAny target numbers visited path =
      store.searchAny target numbers visited path := by
  apply search.mutual_induct store target
  case case1 =>
    intro number visited path cause missing
    rw [search_missing missing, search_missing (store.bare_shapeAt_error missing)]
  case case2 =>
    intro visited path shape isShape
    rw [search_arrive isShape, search_arrive (store.bare_shapeAt_ok isShape)]
    simp
  case case3 =>
    intro number visited path shape isShape different fresh induction
    rw [search_fresh isShape different fresh,
      search_fresh (store.bare_shapeAt_ok isShape) different fresh]
    simp [induction, Found.leaving]
  case case4 =>
    intro number visited path shape isShape different old
    rw [search_old isShape different (Decidable.not_not.mp old),
      search_old (store.bare_shapeAt_ok isShape) different (Decidable.not_not.mp old)]
  case case5 =>
    intro visited path
    rw [searchAny, searchAny]
  case case6 =>
    intro visited path number later first others
    rw [searchAny, searchAny, first]
    simp only [others]

@[simp] theorem bare_walk? (source target : TypeNumber) :
    store.bare.walk? source target = store.walk? source target := by
  rw [walk?, walk?, (store.bare_search target).1]

@[simp] theorem bare_collect (source : TypeNumber) (stack visited : List TypeNumber)
    (recorded : List String) : store.bare.collect source stack visited recorded =
      store.collect source stack visited recorded := by
  induction stack, visited, recorded using collect.induct store source with
  | case1 visited recorded => rw [collect, collect]
  | case2 visited recorded number below old induction =>
      rw [collect, collect, dif_pos old, dif_pos old, induction]
  | case3 visited recorded number below fresh cause missing =>
      rw [collect_missing fresh missing, collect_missing fresh (store.bare_shapeAt_error missing)]
  | case4 visited recorded number below fresh shape isShape induction =>
      rw [collect_fresh fresh isShape, collect_fresh fresh (store.bare_shapeAt_ok isShape)]
      simpa using induction

@[simp] theorem bare_embeddedStructs (number : TypeNumber) :
    store.bare.embeddedStructs number = store.embeddedStructs number := by
  rw [embeddedStructs, embeddedStructs, bare_collect]

theorem descend_congr {α : Type} {holder : TypeNumber}
    {visit other : TypeNumber → Except StoreError α}
    (same : ∀ below, below < holder → visit below = other below) :
    descend holder (fun below _ => visit below) = descend holder (fun below _ => other below) := by
  funext below
  unfold descend
  split
  · exact same below ‹_›
  · rfl

@[simp] theorem bare_unalias (number : TypeNumber) :
    store.bare.unalias number = store.unalias number := by
  induction number using Nat.strongRecOn with
  | ind number induction =>
    rw [unalias, unalias, bare_shapeAt]
    simp only [descend_congr induction]
    cases store.shapeAt number with
    | error cause => rfl
    | ok shape => cases shape <;> rfl

@[simp] theorem bare_isArray (number : TypeNumber) :
    store.bare.isArray number = store.isArray number := by
  rw [isArray, isArray, bare_unalias]
  cases store.unalias number with
  | error cause => rfl
  | ok target =>
      show (store.bare.shapeAt target >>= _) = (store.shapeAt target >>= _)
      rw [bare_shapeAt]
      cases store.shapeAt target with
      | error cause => rfl
      | ok shape => simp [Except.map, bind, Except.bind]

@[simp] theorem bare_identifier (number : TypeNumber) :
    store.bare.identifier number = store.identifier number := by
  induction number using Nat.strongRecOn with
  | ind number induction =>
    rw [identifier, identifier, bare_shapeAt]
    simp only [descend_congr induction]
    cases store.shapeAt number with
    | error cause => rfl
    | ok shape => cases shape <;> rfl

end TypeStore

end CBackend
