import Mathlib.Logic.Relation
import CBackend.TypeStore.Embedding
import CBackend.Proofs.Success

/-!
# Walks by value

Embedding is a relation between types.  The search for a type decides whether
it is reached from another one: if it is met, the names that were put on the
path are those of a walk, and if it is not met, they have all been taken off
again and the types entered in between embed only types that were entered.
-/

namespace CBackend

namespace Shape

theorem enter_eq (shape : Shape) (path : List String) :
    shape.enter path = path ++ shape.name?.toList := by
  unfold enter
  cases shape.name? with
  | none => exact (List.append_nil path).symm
  | some name => rfl

@[simp] theorem leave_enter (shape : Shape) (path : List String) :
    shape.leave (shape.enter path) = path := by
  unfold leave enter
  cases shape.name? with
  | none => rfl
  | some name => exact List.dropLast_concat

/-- Only types with a name embed anything. -/
theorem name?_of_embedded {shape : Shape} {inner : TypeNumber}
    (embedded : inner ∈ shape.embedded) : ∃ name, shape.name? = some name := by
  cases shape with
  | struct name _ _ => exact ⟨name, rfl⟩
  | aliasOf name _ => exact ⟨name, rfl⟩
  | basic _ => cases embedded
  | pointer _ _ => cases embedded
  | array _ _ => cases embedded
  | function _ => cases embedded
  | trait _ _ => cases embedded

end Shape

namespace TypeStore

open Relation (ReflTransGen TransGen)

variable {store : TypeStore} {number target : TypeNumber}

theorem shapeAt_of_lt (inside : number < store.size) :
    ∃ shape, store.shapeAt number = .ok shape :=
  ⟨_, shapeAt_ok_iff.mpr (List.getElem?_eq_getElem inside)⟩

theorem lt_of_shapeAt {shape : Shape} (found : store.shapeAt number = .ok shape) :
    number < store.size :=
  (List.getElem?_eq_some_iff.mp (shapeAt_ok_iff.mp found)).1

theorem shapeAt_missing (outside : store.size ≤ number) :
    store.shapeAt number = .error (.missing number) := by
  rw [shapeAt, List.getElem?_eq_none outside]

/-- A value of the outer type contains one of the inner type. -/
def Embeds (store : TypeStore) (outer inner : TypeNumber) : Prop :=
  ∃ shape, store.shapeAt outer = .ok shape ∧ inner ∈ shape.embedded

/-- Every embedded type exists. -/
def EmbedsExisting (store : TypeStore) : Prop :=
  ∀ outer inner, store.Embeds outer inner → inner < store.size

/-- A type has a given name. -/
def Named (store : TypeStore) (name : String) (number : TypeNumber) : Prop :=
  ∃ shape, store.shapeAt number = .ok shape ∧ shape.name? = some name

/-- A walk by value, with the names of the types on it. -/
inductive Walk (store : TypeStore) (target : TypeNumber) : TypeNumber → List String → Prop where
  | arrive {name : String} (named : store.Named name target) : Walk store target target [name]
  | pass {name : String} {outer inner : TypeNumber} {later : List String}
      (named : store.Named name outer) (embeds : store.Embeds outer inner)
      (walk : Walk store target inner later) : Walk store target outer (name :: later)

/-- How a search from some types ends.  A target that was met lies at the end
of a walk, and the path has the names on it; one that was not met has left the
path as it was, and the search knows all that the types it entered embed. -/
structure Ends (store : TypeStore) (target : TypeNumber) (numbers visited : List TypeNumber)
    (path : List String) (found : Found visited) : Prop where
  met : found.met = true → ∃ number ∈ numbers, ReflTransGen store.Embeds number target ∧
    ∃ names, found.path = path ++ names ∧
      ∀ name, store.Named name target → store.Walk target number names
  restored : found.met = false → found.path = path
  entered : found.met = false → numbers ⊆ found.visited
  closed : found.met = false → ∀ outer ∈ found.visited, outer ∈ visited ∨
    outer ≠ target ∧ ∀ inner, store.Embeds outer inner → inner ∈ found.visited

section Search

variable {numbers visited : List TypeNumber} {path : List String} {shape : Shape}

theorem search_missing {cause : StoreError} (missing : store.shapeAt number = .error cause) :
    store.search target number visited path = .error cause := by
  rw [search]
  split
  · rename_i other isOther
    cases missing.symm.trans isOther
    rfl
  · rename_i shape isShape
    cases missing.symm.trans isShape

theorem search_arrive (isShape : store.shapeAt target = .ok shape) :
    store.search target target visited path =
      .ok ⟨true, visited, shape.enter path, List.Subset.refl _⟩ := by
  rw [search]
  split
  · rename_i cause missing
    cases missing.symm.trans isShape
  · rename_i other isOther
    cases isOther.symm.trans isShape
    rw [if_pos rfl]

theorem search_old (isShape : store.shapeAt number = .ok shape)
    (different : number ≠ target) (old : number ∈ visited) :
    store.search target number visited path =
      .ok ⟨false, visited, path, List.Subset.refl _⟩ := by
  rw [search]
  split
  · rename_i cause missing
    cases missing.symm.trans isShape
  · rename_i other isOther
    cases isOther.symm.trans isShape
    rw [if_neg different, dif_neg (not_not_intro old)]
    simp [Found.leaving]

theorem search_fresh (isShape : store.shapeAt number = .ok shape)
    (different : number ≠ target) (fresh : number ∉ visited) :
    store.search target number visited path =
      (store.searchAny target shape.embedded (number :: visited) (shape.enter path) >>=
        fun found => pure ((found.leaving shape).since (List.subset_cons_self _ _))) := by
  rw [search]
  split
  · rename_i cause missing
    cases missing.symm.trans isShape
  · rename_i other isOther
    cases isOther.symm.trans isShape
    rw [if_neg different, dif_pos fresh]

theorem Ends.arrive (isShape : store.shapeAt target = .ok shape) :
    store.Ends target [target] visited path
      ⟨true, visited, shape.enter path, List.Subset.refl _⟩ := by
  refine ⟨fun _ => ⟨target, List.mem_cons_self, .refl, _, shape.enter_eq path, ?_⟩,
    nofun, nofun, nofun⟩
  rintro name ⟨other, isOther, hasName⟩
  cases isOther.symm.trans isShape
  rw [hasName]
  exact .arrive ⟨shape, isShape, hasName⟩

theorem Ends.old (old : number ∈ visited) :
    store.Ends target [number] visited path ⟨false, visited, path, List.Subset.refl _⟩ := by
  refine ⟨nofun, fun _ => rfl, ?_, fun _ outer member => .inl member⟩
  rintro _ other member
  rw [List.mem_singleton.mp member]
  exact old

/-- The search of the types that a type embeds is the search of the type. -/
theorem Ends.enter (isShape : store.shapeAt number = .ok shape) (different : number ≠ target)
    {found : Found (number :: visited)}
    (ends : store.Ends target shape.embedded (number :: visited) (shape.enter path) found) :
    store.Ends target [number] visited path
      ((found.leaving shape).since (List.subset_cons_self _ _)) := by
  cases isMet : found.met with
  | true =>
      obtain ⟨inner, embedded, reaches, names, walked, walks⟩ := ends.met isMet
      obtain ⟨name, hasName⟩ := Shape.name?_of_embedded embedded
      have embeds : store.Embeds number inner := ⟨shape, isShape, embedded⟩
      simp only [Found.leaving, isMet, if_true, Found.since]
      refine ⟨fun _ => ⟨number, List.mem_cons_self, .head embeds reaches, name :: names, ?_, ?_⟩,
        nofun, nofun, nofun⟩
      · simp [walked, Shape.enter_eq, hasName]
      · intro other isOther
        exact .pass ⟨shape, isShape, hasName⟩ embeds (walks other isOther)
  | false =>
      simp only [Found.leaving, isMet, Bool.false_eq_true, if_false, Found.since]
      have here : number ∈ found.visited := found.grows List.mem_cons_self
      refine ⟨nofun, ?_, ?_, ?_⟩
      · intro _
        simp [ends.restored isMet]
      · rintro _ other member
        rw [List.mem_singleton.mp member]
        exact here
      · intro _ outer member
        rcases ends.closed isMet outer member with old | closed
        · rcases List.mem_cons.mp old with rfl | older
          · refine .inr ⟨different, ?_⟩
            rintro inner ⟨other, isOther, embedded⟩
            cases isOther.symm.trans isShape
            exact ends.entered isMet embedded
          · exact .inl older
        · exact .inr closed

/-- A target that was met in the search of the first type is met at all. -/
theorem Ends.first {found : Found visited} (isMet : found.met = true)
    (ends : store.Ends target [number] visited path found) (later : List TypeNumber) :
    store.Ends target (number :: later) visited path found := by
  obtain ⟨other, member, walk⟩ := ends.met isMet
  rw [List.mem_singleton.mp member] at walk
  refine ⟨fun _ => ⟨number, List.mem_cons_self, walk⟩, ends.restored, ?_, ends.closed⟩
  intro unmet
  cases isMet.symm.trans unmet

/-- A search that has gone on after the first type. -/
theorem Ends.next {found : Found visited} {last : Found found.visited}
    {later : List TypeNumber} (unmet : found.met = false)
    (ends : store.Ends target [number] visited path found)
    (others : store.Ends target later found.visited found.path last) :
    store.Ends target (number :: later) visited path (last.since found.grows) := by
  refine ⟨?_, ?_, ?_, ?_⟩
  · intro met
    obtain ⟨other, member, reaches, names, walked, walks⟩ := others.met met
    rw [ends.restored unmet] at walked
    exact ⟨other, List.mem_cons_of_mem _ member, reaches, names, walked, walks⟩
  · intro lastUnmet
    exact (others.restored lastUnmet).trans (ends.restored unmet)
  · intro lastUnmet other member
    rcases List.mem_cons.mp member with rfl | after
    · exact last.grows (ends.entered unmet List.mem_cons_self)
    · exact others.entered lastUnmet after
  · intro lastUnmet outer member
    rcases others.closed lastUnmet outer member with before | closed
    · rcases ends.closed unmet outer before with old | ⟨different, closed⟩
      · exact .inl old
      · exact .inr ⟨different, fun inner embeds => last.grows (closed inner embeds)⟩
    · exact .inr closed

theorem search_ends (store : TypeStore) (target : TypeNumber) :
    (∀ number visited path found, store.search target number visited path = .ok found →
      store.Ends target [number] visited path found) ∧
    ∀ numbers visited path found, store.searchAny target numbers visited path = .ok found →
      store.Ends target numbers visited path found := by
  apply search.mutual_induct store target
  case case1 =>
    intro number visited path cause missing found ran
    cases (search_missing missing).symm.trans ran
  case case2 =>
    intro visited path shape isShape found ran
    cases (search_arrive isShape).symm.trans ran
    exact .arrive isShape
  case case3 =>
    intro number visited path shape isShape different fresh induction found ran
    rw [search_fresh isShape different fresh] at ran
    obtain ⟨inner, searched, same⟩ := Success.bind_iff.mp ran
    cases same
    exact .enter isShape different (induction inner searched)
  case case4 =>
    intro number visited path shape isShape different old found ran
    cases (search_old isShape different (not_not.mp old)).symm.trans ran
    exact .old (not_not.mp old)
  case case5 =>
    intro visited path found ran
    rw [searchAny] at ran
    cases ran
    exact ⟨nofun, fun _ => rfl, fun _ => List.nil_subset _, fun _ outer member => .inl member⟩
  case case6 =>
    intro visited path number later first others found ran
    rw [searchAny] at ran
    obtain ⟨here, searched, ran⟩ := Success.bind_iff.mp ran
    cases isMet : here.met with
    | true =>
        rw [isMet] at ran
        cases ran
        exact .first isMet (first _ searched) later
    | false =>
        rw [isMet] at ran
        obtain ⟨last, searchedLater, same⟩ := Success.bind_iff.mp ran
        cases same
        exact .next isMet (first here searched) (others here last searchedLater)

/-- A search fails only at a type that does not exist. -/
theorem search_total (existing : store.EmbedsExisting) (target : TypeNumber) :
    (∀ number visited path, number < store.size →
      ∃ found, store.search target number visited path = .ok found) ∧
    ∀ numbers visited path, (∀ number ∈ numbers, number < store.size) →
      ∃ found, store.searchAny target numbers visited path = .ok found := by
  apply search.mutual_induct store target
  case case1 =>
    intro number visited path cause missing inside
    obtain ⟨shape, isShape⟩ := shapeAt_of_lt inside
    cases missing.symm.trans isShape
  case case2 =>
    intro visited path shape isShape _
    exact ⟨_, search_arrive isShape⟩
  case case3 =>
    intro number visited path shape isShape different fresh induction _
    obtain ⟨found, searched⟩ := induction fun inner embedded =>
      existing number inner ⟨shape, isShape, embedded⟩
    rw [search_fresh isShape different fresh, searched]
    exact ⟨_, rfl⟩
  case case4 =>
    intro number visited path shape isShape different old _
    exact ⟨_, search_old isShape different (not_not.mp old)⟩
  case case5 =>
    intro visited path _
    rw [searchAny]
    exact ⟨_, rfl⟩
  case case6 =>
    intro visited path number later first others inside
    obtain ⟨here, searched⟩ := first (inside number List.mem_cons_self)
    obtain ⟨last, searchedLater⟩ := others here fun other member =>
      inside other (List.mem_cons_of_mem _ member)
    rw [searchAny, searched]
    cases isMet : here.met with
    | true => exact ⟨here, by simp [bind, Except.bind, isMet, pure, Except.pure]⟩
    | false =>
        exact ⟨last.since here.grows, by
          simp [bind, Except.bind, isMet, searchedLater, pure, Except.pure]⟩

end Search

section Walks

variable {source : TypeNumber}

theorem walk?_success_iff {walk : Option (List String)} :
    store.walk? source target = .ok walk ↔
      ∃ found, store.search target source [] [] = .ok found ∧
        walk = if found.met then some found.path else none := by
  rw [walk?, Success.bind_iff]
  constructor
  · rintro ⟨found, searched, same⟩
    cases same
    exact ⟨found, searched, rfl⟩
  · rintro ⟨found, searched, rfl⟩
    exact ⟨found, searched, rfl⟩

theorem walk?_total (existing : store.EmbedsExisting) (inside : source < store.size)
    (target : TypeNumber) : ∃ walk, store.walk? source target = .ok walk := by
  obtain ⟨found, searched⟩ := (search_total existing target).1 source [] [] inside
  exact ⟨_, walk?_success_iff.mpr ⟨found, searched, rfl⟩⟩

/-- A walk that is found exists, and has the names that are given. -/
theorem walk?_some {names : List String} (found : store.walk? source target = .ok (some names)) :
    ReflTransGen store.Embeds source target ∧
      ∀ name, store.Named name target → store.Walk target source names := by
  obtain ⟨ending, searched, isSome⟩ := walk?_success_iff.mp found
  cases isMet : ending.met with
  | false =>
      rw [isMet] at isSome
      cases isSome
  | true =>
      rw [isMet] at isSome
      cases isSome
      obtain ⟨other, member, reaches, walked, same, walks⟩ :=
        ((search_ends store target).1 _ _ _ _ searched).met isMet
      rw [List.mem_singleton.mp member] at reaches walks
      rw [same]
      exact ⟨reaches, walks⟩

/-- If the search finds no walk, there is none. -/
theorem walk?_none (none : store.walk? source target = .ok none) :
    ¬ ReflTransGen store.Embeds source target := by
  obtain ⟨ending, searched, isNone⟩ := walk?_success_iff.mp none
  have unmet : ending.met = false := by
    cases isMet : ending.met with
    | false => rfl
    | true =>
        rw [isMet] at isNone
        cases isNone
  have ends := (search_ends store target).1 _ _ _ _ searched
  have closed : ∀ outer ∈ ending.visited, outer ≠ target ∧
      ∀ inner, store.Embeds outer inner → inner ∈ ending.visited := by
    intro outer member
    exact (ends.closed unmet outer member).resolve_left List.not_mem_nil
  have stays : ∀ reached, ReflTransGen store.Embeds source reached → reached ∈ ending.visited := by
    intro reached reaches
    induction reaches with
    | refl => exact ends.entered unmet List.mem_cons_self
    | tail _ embeds induction => exact (closed _ induction).2 _ embeds
  intro reaches
  exact (closed target (stays target reaches)).1 rfl

end Walks

theorem collect_missing {source : TypeNumber} {below visited : List TypeNumber}
    {recorded : List String} {cause : StoreError} (fresh : number ∉ visited)
    (missing : store.shapeAt number = .error cause) :
    store.collect source (number :: below) visited recorded = .error cause := by
  rw [collect, dif_neg fresh]
  split
  · rename_i other isOther
    cases isOther.symm.trans missing
    rfl
  · rename_i shape isShape
    cases missing.symm.trans isShape

theorem collect_fresh {source : TypeNumber} {below visited : List TypeNumber}
    {recorded : List String} {shape : Shape} (fresh : number ∉ visited)
    (isShape : store.shapeAt number = .ok shape) :
    store.collect source (number :: below) visited recorded =
      store.collect source (shape.embedded.reverse ++ below) (number :: visited)
        (if number = source then recorded else shape.record recorded) := by
  rw [collect, dif_neg fresh]
  split
  · rename_i cause missing
    cases missing.symm.trans isShape
  · rename_i other isOther
    cases isOther.symm.trans isShape
    rfl

theorem collect_total {source : TypeNumber} {stack visited : List TypeNumber}
    {recorded : List String} (existing : store.EmbedsExisting)
    (inside : ∀ number ∈ stack, number < store.size) :
    ∃ names, store.collect source stack visited recorded = .ok names := by
  induction stack, visited, recorded using collect.induct store source with
  | case1 visited recorded =>
      rw [collect]
      exact ⟨_, rfl⟩
  | case2 visited recorded number below old induction =>
      rw [collect, dif_pos old]
      exact induction fun other member => inside other (List.mem_cons_of_mem _ member)
  | case3 visited recorded number below fresh cause missing =>
      obtain ⟨shape, isShape⟩ := shapeAt_of_lt (inside _ List.mem_cons_self)
      cases missing.symm.trans isShape
  | case4 visited recorded number below fresh shape isShape induction =>
      rw [collect_fresh fresh isShape]
      apply induction
      intro inner member
      rcases List.mem_append.mp member with embedded | after
      · exact existing number inner ⟨shape, isShape, List.mem_reverse.mp embedded⟩
      · exact inside inner (List.mem_cons_of_mem _ after)

end TypeStore

end CBackend
