import Mathlib.Data.String.Basic
import CBackend.Proofs.TypeStore.Growth

/-!
# What is embedded by value

Two searches follow the edges by value, in different orders and with different
sets of visited types.  One is recursive, takes the first field first and stops
at the type that it looks for.  The other has a stack, takes the last field
first and goes on until the stack is empty; all the while what it has visited
embeds only types that are visited or on the stack.

Each of them finds what is reached and nothing else, and so they agree.  Since
names are distinct, a recorded name stands for one struct, and it may be asked
instead of the search.
-/

namespace CBackend

section Names

variable {name other : String} {names : List String}

theorem mem_insertName : other ∈ insertName name names ↔ other = name ∨ other ∈ names := by
  induction names with
  | nil => simp [insertName]
  | cons first later induction =>
      unfold insertName
      split
      · rw [List.mem_cons]
      · split
        · rename_i same
          rw [same, List.mem_cons]
          tauto
        · rw [List.mem_cons, induction, List.mem_cons]
          tauto

theorem insertName_increasing (increasing : names.Pairwise (· < ·)) :
    (insertName name names).Pairwise (· < ·) := by
  induction names with
  | nil => exact List.pairwise_singleton _ _
  | cons first later induction =>
      obtain ⟨smaller, rest⟩ := List.pairwise_cons.mp increasing
      unfold insertName
      split
      · rename_i before
        refine List.pairwise_cons.mpr ⟨?_, increasing⟩
        intro other member
        rcases List.mem_cons.mp member with rfl | after
        · exact before
        · exact before.trans (smaller other after)
      · rename_i notBefore
        split
        · exact increasing
        · rename_i different
          refine List.pairwise_cons.mpr ⟨?_, induction rest⟩
          intro other member
          rcases mem_insertName.mp member with rfl | after
          · exact lt_of_le_of_ne (not_lt.mp notBefore) (Ne.symm different)
          · exact smaller other after

end Names

namespace TypeStore

open Relation (ReflTransGen)

variable {store : TypeStore}

/-- A type is a struct with the given name. -/
def IsStruct (store : TypeStore) (name : String) (number : TypeNumber) : Prop :=
  ∃ fields signature, store.shapeAt number = .ok (.struct name fields signature)

/-- What is known while structs are recorded: what is visited or on the stack
is reached, the source is among it, what is visited embeds nothing else, and
the names are those of the structs that are visited. -/
structure Recording (store : TypeStore) (source : TypeNumber) (stack visited : List TypeNumber)
    (recorded : List String) : Prop where
  reached : ∀ number, number ∈ stack ∨ number ∈ visited → ReflTransGen store.Embeds source number
  started : source ∈ stack ∨ source ∈ visited
  closed : ∀ outer ∈ visited, ∀ inner, store.Embeds outer inner → inner ∈ stack ∨ inner ∈ visited
  names : ∀ name, name ∈ recorded ↔
    ∃ struct ∈ visited, struct ≠ source ∧ store.IsStruct name struct
  increasing : recorded.Pairwise (· < ·)

section Search

variable {source number : TypeNumber} {stack below visited : List TypeNumber}
  {recorded names : List String} {name : String}

theorem recording_start (store : TypeStore) (source : TypeNumber) :
    store.Recording source [source] [] [] := by
  refine ⟨?_, .inl List.mem_cons_self, nofun, by simp, .nil⟩
  rintro number (member | member)
  · rw [List.mem_singleton.mp member]
  · cases member

/-- A type that was visited before is dropped. -/
theorem Recording.skip (recording : store.Recording source (number :: below) visited recorded)
    (old : number ∈ visited) : store.Recording source below visited recorded := by
  have drop : ∀ other, other ∈ number :: below ∨ other ∈ visited →
      other ∈ below ∨ other ∈ visited := by
    rintro other (member | member)
    · rcases List.mem_cons.mp member with rfl | after
      · exact .inr old
      · exact .inl after
    · exact .inr member
  refine ⟨?_, drop source recording.started, ?_, recording.names, recording.increasing⟩
  · rintro other (member | member)
    · exact recording.reached other (.inl (List.mem_cons_of_mem _ member))
    · exact recording.reached other (.inr member)
  · intro outer member inner embeds
    exact drop inner (recording.closed outer member inner embeds)

theorem mem_record_iff {shape : Shape} (isShape : store.shapeAt number = .ok shape) :
    name ∈ shape.record recorded ↔ store.IsStruct name number ∨ name ∈ recorded := by
  have structs : store.IsStruct name number ↔
      ∃ fields signature, shape = .struct name fields signature := by
    simp only [IsStruct, isShape, Except.ok.injEq]
  rw [structs]
  cases shape with
  | struct other fields signature =>
      rw [Shape.record, mem_insertName]
      simp [eq_comm]
  | basic _ => simp [Shape.record]
  | pointer _ _ => simp [Shape.record]
  | array _ _ => simp [Shape.record]
  | function _ => simp [Shape.record]
  | trait _ _ => simp [Shape.record]
  | aliasOf _ _ => simp [Shape.record]

theorem record_increasing (shape : Shape) (increasing : recorded.Pairwise (· < ·)) :
    (shape.record recorded).Pairwise (· < ·) := by
  cases shape with
  | struct name _ _ => exact insertName_increasing increasing
  | basic _ => exact increasing
  | pointer _ _ => exact increasing
  | array _ _ => exact increasing
  | function _ => exact increasing
  | trait _ _ => exact increasing
  | aliasOf _ _ => exact increasing

/-- A new type is visited, and what it embeds is put on the stack. -/
theorem Recording.visit {shape : Shape}
    (recording : store.Recording source (number :: below) visited recorded)
    (isShape : store.shapeAt number = .ok shape) :
    store.Recording source (shape.embedded.reverse ++ below) (number :: visited)
      (if number = source then recorded else shape.record recorded) := by
  have moved : ∀ other, other ∈ number :: below ∨ other ∈ visited →
      other ∈ shape.embedded.reverse ++ below ∨ other ∈ number :: visited := by
    simp only [List.mem_cons, List.mem_append]
    tauto
  have here := recording.reached number (.inl List.mem_cons_self)
  refine ⟨?_, moved source recording.started, ?_, ?_, ?_⟩
  · rintro other (member | member)
    · rcases List.mem_append.mp member with embedded | after
      · exact here.tail ⟨shape, isShape, List.mem_reverse.mp embedded⟩
      · exact recording.reached other (.inl (List.mem_cons_of_mem _ after))
    · rcases List.mem_cons.mp member with rfl | old
      · exact here
      · exact recording.reached other (.inr old)
  · intro outer member inner embeds
    rcases List.mem_cons.mp member with rfl | old
    · obtain ⟨other, isOther, embedded⟩ := embeds
      cases isOther.symm.trans isShape
      exact .inl (List.mem_append_left _ (List.mem_reverse.mpr embedded))
    · exact moved inner (recording.closed outer old inner embeds)
  · intro name
    split
    · rename_i isSource
      simp [recording.names, isSource]
    · rename_i different
      rw [mem_record_iff isShape, recording.names]
      simp [different]
  · split
    · exact recording.increasing
    · exact record_increasing shape recording.increasing

theorem Recording.collect (recording : store.Recording source stack visited recorded)
    (collected : store.collect source stack visited recorded = .ok names) :
    ∃ all, store.Recording source [] all names := by
  induction stack, visited, recorded using collect.induct store source with
  | case1 visited recorded =>
      rw [TypeStore.collect] at collected
      cases collected
      exact ⟨visited, recording⟩
  | case2 visited recorded number below old induction =>
      rw [TypeStore.collect, dif_pos old] at collected
      exact induction (recording.skip old) collected
  | case3 visited recorded number below fresh cause missing =>
      cases (collect_missing fresh missing).symm.trans collected
  | case4 visited recorded number below fresh shape isShape induction =>
      rw [collect_fresh fresh isShape] at collected
      exact induction (recording.visit isShape) collected

/-- What is visited in the end is all that is reached. -/
theorem Recording.visited_iff (recording : store.Recording source [] visited recorded) :
    number ∈ visited ↔ ReflTransGen store.Embeds source number := by
  refine ⟨fun member => recording.reached number (.inr member), ?_⟩
  intro reaches
  induction reaches with
  | refl => exact recording.started.resolve_left List.not_mem_nil
  | tail _ embeds induction =>
      exact (recording.closed _ induction _ embeds).resolve_left List.not_mem_nil

/-- The structs embedded in a type are those that are reached from it. -/
theorem embeddedStructs_exact (success : store.embeddedStructs source = .ok names) :
    names.Pairwise (· < ·) ∧ ∀ name, name ∈ names ↔ ∃ struct fields signature, struct ≠ source ∧
      store.shapeAt struct = .ok (.struct name fields signature) ∧
      ReflTransGen store.Embeds source struct := by
  obtain ⟨visited, recording⟩ := (recording_start store source).collect success
  refine ⟨recording.increasing, ?_⟩
  intro name
  rw [recording.names]
  constructor
  · rintro ⟨struct, member, different, fields, signature, isStruct⟩
    exact ⟨struct, fields, signature, different, isStruct, recording.visited_iff.mp member⟩
  · rintro ⟨struct, fields, signature, different, isStruct, reaches⟩
    exact ⟨struct, recording.visited_iff.mpr reaches, different, fields, signature, isStruct⟩

/-- The search finds a walk exactly if there is one. -/
theorem walk?_isSome_iff {target : TypeNumber} {found : Option (List String)}
    (searched : store.walk? source target = .ok found) :
    found.isSome ↔ ReflTransGen store.Embeds source target := by
  cases found with
  | none => exact iff_of_false nofun (walk?_none searched)
  | some names => exact iff_of_true rfl (walk?_some searched).1

end Search

/-- Whatever was done to a store, the structs embedded in a type are listed by
name, in order and each once: they are the structs other than the type itself
that are reached from it by value.  The search for a walk always ends, and it
finds a struct exactly if the struct is where it started or is listed. -/
theorem closures_agree (pointerSize : PointerSize) (operations : List Operation)
    (source : TypeNumber) (inside : source < (history pointerSize operations).size) :
    let store := history pointerSize operations
    ∃ names, store.embeddedStructs source = .ok names ∧ names.Pairwise (· < ·) ∧
      (∀ name, name ∈ names ↔ ∃ struct fields signature, struct ≠ source ∧
        store.shapeAt struct = .ok (.struct name fields signature) ∧
        ReflTransGen store.Embeds source struct) ∧
      ∀ struct name fields signature,
        store.shapeAt struct = .ok (.struct name fields signature) →
        ∃ found, store.walk? source struct = .ok found ∧
          (found.isSome ↔ source = struct ∨ name ∈ names) := by
  intro store
  have ordered : store.Ordered := history_ordered pointerSize operations
  have distinct : store.names.Nodup := history_names_nodup pointerSize operations
  have answers := ordered.embeddedStructs_answers source
  rw [Answers, if_pos inside] at answers
  obtain ⟨names, embedded⟩ := answers
  obtain ⟨increasing, listed⟩ := embeddedStructs_exact embedded
  refine ⟨names, embedded, increasing, listed, ?_⟩
  intro struct name fields signature isStruct
  obtain ⟨found, searched⟩ := ordered.walk?_total inside struct
  refine ⟨found, searched, ?_⟩
  rw [walk?_isSome_iff searched, listed]
  constructor
  · intro reached
    by_cases here : source = struct
    · exact .inl here
    · exact .inr ⟨struct, fields, signature, Ne.symm here, isStruct, reached⟩
  · rintro (rfl | ⟨other, _, _, _, isOther, reached⟩)
    · exact .refl
    · have same : struct = other :=
        Named.unique distinct ⟨_, isStruct, rfl⟩ ⟨_, isOther, rfl⟩
      rwa [same]

/-- `A` holds `B` through an alias and through `C`, and `B` points back. -/
def diamondOperations : List Operation :=
  [.announce "A", .announce "B", .insert (.aliasOf "L" 1), .extend 0 ⟨"l", 2⟩,
    .insert (.pointer .safe 0), .extend 1 ⟨"back", 3⟩, .announce "C", .extend 4 ⟨"b", 1⟩,
    .extend 0 ⟨"c", 4⟩]

theorem diamond_closures :
    0 < (history .eight diamondOperations).size ∧
    (history .eight diamondOperations).embeddedStructs 0 = .ok ["B", "C"] ∧
    ∃ found, (history .eight diamondOperations).walk? 0 1 = .ok found ∧ found.isSome := by
  have inside : 0 < (history .eight diamondOperations).size := by decide +kernel
  have listed : (history .eight diamondOperations).embeddedStructs 0 = .ok ["B", "C"] := by
    decide +kernel
  have isStruct : (history .eight diamondOperations).shapeAt 1 =
      .ok (.struct "B" [⟨"back", 3⟩] [⟨0o44⟩, ⟨0⟩]) := by decide +kernel
  refine ⟨inside, listed, ?_⟩
  obtain ⟨names, embedded, _, _, agrees⟩ := closures_agree .eight diamondOperations 0 inside
  cases embedded.symm.trans listed
  obtain ⟨found, searched, finds⟩ := agrees 1 "B" _ _ isStruct
  exact ⟨found, searched, finds.mpr (.inr List.mem_cons_self)⟩

end TypeStore

end CBackend
