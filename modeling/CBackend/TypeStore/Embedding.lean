import CBackend.TypeStore.Basic

/-!
# Embedding by value

A struct embeds the types of its fields and an alias its target.  Two
searches follow these edges.  One is recursive: it looks for a given type,
enters each type once and keeps the names of the types that it stands in.
The other keeps a stack of types to look at and records the names of the
structs among them.  Each has its own set of visited types, which only grows.
-/

namespace CBackend

/-- Puts a name into an increasing list of names, unless it is there. -/
def insertName (name : String) : List String → List String
  | [] => [name]
  | first :: later =>
    if name < first then name :: first :: later
    else if name = first then first :: later
    else first :: insertName name later

namespace Shape

/-- The names of the types a search stands in, once it enters this one. -/
def enter (shape : Shape) (path : List String) : List String :=
  match shape.name? with
  | some name => path ++ [name]
  | none => path

/-- The names of the types a search stands in, once it leaves this one. -/
def leave (shape : Shape) (path : List String) : List String :=
  if shape.name?.isSome then path.dropLast else path

/-- Adds the name of a struct to those recorded so far. -/
def record (recorded : List String) : Shape → List String
  | .struct name .. => insertName name recorded
  | _ => recorded

end Shape

namespace TypeStore

/-- How many types of a store have not been visited. -/
def unvisited (store : TypeStore) (visited : List TypeNumber) : Nat :=
  ((List.range store.size).filter (· ∉ visited)).length

theorem unvisited_le {store : TypeStore} {visited later : List TypeNumber}
    (grows : visited ⊆ later) : store.unvisited later ≤ store.unvisited visited := by
  have fewer : (List.range store.size).filter (· ∉ later) =
      ((List.range store.size).filter (· ∉ visited)).filter (· ∉ later) := by
    rw [List.filter_filter]
    apply List.filter_congr
    intro number _
    by_cases old : number ∈ visited
    · simp [old, grows old]
    · simp [old]
  rw [unvisited, fewer]
  exact List.length_filter_le _ _

theorem unvisited_lt {store : TypeStore} {number : TypeNumber} {shape : Shape}
    {visited : List TypeNumber} (isShape : store.shapeAt number = .ok shape)
    (fresh : number ∉ visited) :
    store.unvisited (number :: visited) < store.unvisited visited := by
  have inside : number < store.shapes.length :=
    (List.getElem?_eq_some_iff.mp (shapeAt_ok_iff.mp isShape)).1
  have fewer : (List.range store.size).filter (· ∉ number :: visited) =
      ((List.range store.size).filter (· ∉ visited)).filter (· ≠ number) := by
    rw [List.filter_filter]
    apply List.filter_congr
    intro other _
    simp
  rw [unvisited, fewer]
  apply List.length_filter_lt_length_iff_exists.mpr
  refine ⟨number, List.mem_filter.mpr ⟨List.mem_range.mpr inside, ?_⟩, ?_⟩
  · simpa using fresh
  · simp

/-- How many edges leave the types of a store. -/
def edges (store : TypeStore) : Nat := (store.shapes.map Shape.embedded).flatten.length

/-- A bound for the edges that a search still follows. -/
def effort (store : TypeStore) (visited : List TypeNumber) : Nat :=
  store.unvisited visited * (store.edges + 1)

theorem effort_le {store : TypeStore} {visited later : List TypeNumber}
    (grows : visited ⊆ later) : store.effort later ≤ store.effort visited :=
  Nat.mul_le_mul_right _ (unvisited_le grows)

theorem effort_lt {store : TypeStore} {number : TypeNumber} {shape : Shape}
    {visited : List TypeNumber} (isShape : store.shapeAt number = .ok shape)
    (fresh : number ∉ visited) :
    store.effort (number :: visited) + shape.embedded.length < store.effort visited := by
  have member : shape ∈ store.shapes := List.mem_of_getElem? (shapeAt_ok_iff.mp isShape)
  have bounded : shape.embedded.length ≤ store.edges :=
    (List.sublist_flatten_of_mem (List.mem_map_of_mem member)).length_le
  have fewer := Nat.mul_le_mul_right (store.edges + 1)
    (Nat.succ_le_of_lt (unvisited_lt isShape fresh))
  rw [Nat.succ_mul] at fewer
  unfold effort
  omega

/-- What a search has come to: whether it met its target, the types it has
entered, and the names of the types it stands in. -/
structure Found (before : List TypeNumber) where
  met : Bool
  visited : List TypeNumber
  path : List String
  grows : before ⊆ visited

namespace Found

/-- The same, as seen from an earlier time. -/
def since {before between : List TypeNumber} (found : Found between)
    (earlier : before ⊆ between) : Found before :=
  ⟨found.met, found.visited, found.path, fun _ old => found.grows (earlier old)⟩

/-- A search that has not met its target goes back. -/
def leaving {before : List TypeNumber} (found : Found before) (shape : Shape) : Found before :=
  if found.met then found else { found with path := shape.leave found.path }

end Found

mutual

/-- Depth-first search for `target`, starting at a type. -/
def search (store : TypeStore) (target number : TypeNumber) (visited : List TypeNumber)
    (path : List String) : Except StoreError (Found visited) :=
  match _isShape : store.shapeAt number with
  | .error cause => .error cause
  | .ok shape =>
    if number = target then .ok ⟨true, visited, shape.enter path, List.Subset.refl _⟩
    else if _fresh : number ∉ visited then do
      let found ← store.searchAny target shape.embedded (number :: visited) (shape.enter path)
      return (found.leaving shape).since (List.subset_cons_self _ _)
    else .ok (Found.leaving ⟨false, visited, shape.enter path, List.Subset.refl _⟩ shape)
termination_by store.effort visited
decreasing_by exact effort_lt _isShape _fresh

/-- Searches from one type after the other, until the target is met. -/
def searchAny (store : TypeStore) (target : TypeNumber) (numbers visited : List TypeNumber)
    (path : List String) : Except StoreError (Found visited) :=
  match numbers with
  | [] => .ok ⟨false, visited, path, List.Subset.refl _⟩
  | number :: later => do
    let found ← store.search target number visited path
    if found.met then return found
    let last ← store.searchAny target later found.visited found.path
    return last.since found.grows
termination_by store.effort visited + numbers.length
decreasing_by
  · exact Nat.lt_add_of_pos_right (by simp)
  · exact Nat.add_lt_add_of_le_of_lt (effort_le found.grows) (by simp)

end

/-- The names on a by-value walk from `source` to `target`, both included,
if there is such a walk. -/
def walk? (store : TypeStore) (source target : TypeNumber) :
    Except StoreError (Option (List String)) := do
  let found ← store.search target source [] []
  return if found.met then some found.path else none

/-- Records the names of the structs reached from the types on a stack, which
has its top in front; the type where it all started is left out. -/
def collect (store : TypeStore) (source : TypeNumber) (stack visited : List TypeNumber)
    (recorded : List String) : Except StoreError (List String) :=
  match stack with
  | [] => .ok recorded
  | number :: below =>
    if _old : number ∈ visited then store.collect source below visited recorded
    else
      match _isShape : store.shapeAt number with
      | .error cause => .error cause
      | .ok shape =>
        store.collect source (shape.embedded.reverse ++ below) (number :: visited)
          (if number = source then recorded else shape.record recorded)
termination_by store.effort visited + stack.length
decreasing_by
  · simp
  · have fewer := effort_lt _isShape _old
    rw [List.length_append, List.length_reverse, List.length_cons]
    omega

/-- The names of all structs embedded in a type, at any depth, in order of
their code points. -/
def embeddedStructs (store : TypeStore) (number : TypeNumber) :
    Except StoreError (List String) :=
  store.collect number [number] [] []

end TypeStore

end CBackend
