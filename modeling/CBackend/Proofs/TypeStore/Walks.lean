import CBackend.Proofs.TypeStore.InPlace

/-!
# Refused fields

A field is refused if its type embeds the struct, at any depth, and the
refusal tells a walk from the one to the other.  The search enters each type
once, whichever of its neighbours it came from.  It takes the name of a type
off its path when it leaves the type in vain, so the names on the path at the
end are those of a walk that exists, and leaving out what was entered before
loses none.

Everything a field is refused for is found before anything is written.
-/

namespace CBackend

namespace TypeStore

open Relation (ReflTransGen)

section Search

variable {store : TypeStore} {source target : TypeNumber}

theorem Walk.reaches {names : List String} (walk : store.Walk target source names) :
    ReflTransGen store.Embeds source target := by
  induction walk with
  | arrive named => exact .refl
  | pass _ embeds _ induction => exact .head embeds induction

end Search

section Decision

variable {store : TypeStore} {number : TypeNumber} {name : String} {fields : List Field}
  {signature : Signature} {field : Field}

/-- A field with a new name and an existing type is refused with a walk from
its type to the struct, or there is no such walk and it is added. -/
theorem Ordered.extend_decides (ordered : store.Ordered)
    (isStruct : store.shapeAt number = .ok (.struct name fields signature))
    (inside : field.type < store.size) (fresh : field.name ∉ fields.map Field.name) :
    (∃ names, store.extend number field = .error (.selfEmbedding name field.name names) ∧
        store.Walk number field.type names) ∨
      ¬ ReflTransGen store.Embeds field.type number ∧
        ∃ added, store.signature field.type = .ok added ∧
          store.extend number field =
            .ok (store.replace number (.struct name (fields ++ [field]) (signature ++ added))) := by
  have unused : fields.any (·.name == field.name) = false := by
    rw [List.any_eq_false]
    intro other member same
    exact fresh (List.mem_map.mpr ⟨other, member, beq_iff_eq.mp same⟩)
  obtain ⟨walk, searched⟩ := ordered.walk?_total inside number
  obtain ⟨added, laidOut⟩ := ordered.signature_total inside
  cases walk with
  | none =>
      refine .inr ⟨walk?_none searched, added, laidOut, ?_⟩
      exact extend_success_iff.mpr ⟨name, fields, signature, added, isStruct, unused, inside,
        searched, laidOut, rfl⟩
  | some names =>
      obtain ⟨shape, isShape⟩ := shapeAt_of_lt inside
      refine .inl ⟨names, ?_, (walk?_some searched).2 name ⟨_, isStruct, rfl⟩⟩
      rw [TypeStore.extend, isStruct, isShape, searched]
      dsimp only [bind, Except.bind]
      rw [if_neg (Bool.eq_false_iff.mp unused)]
      rfl

end Decision

/-- A change of a store at one number only, which no search notices. -/
structure ChangesOnly (store next : TypeStore) (number : TypeNumber) : Prop where
  pointerSize : next.pointerSize = store.pointerSize
  size : next.size = store.size
  others : ∀ other, other ≠ number → next.shapeAt other = store.shapeAt other
  names : ∀ name, next.find? name = store.find? name
  basics : ∀ code, (next.internBasic code).1 = (store.internBasic code).1

theorem extend_findBasic? {store next : TypeStore} {number : TypeNumber} {field : Field}
    (success : store.extend number field = .ok next) (code : BasicCode) :
    next.shapes.findIdx? (· = .basic code) = store.shapes.findIdx? (· = .basic code) := by
  obtain ⟨name, fields, signature, added, isStruct, _, _, _, _, rfl⟩ :=
    extend_success_iff.mp success
  exact findIdx?_set (shapeAt_ok_iff.mp isStruct) (by simp)

theorem extend_changesOnly {store next : TypeStore} {number : TypeNumber} {field : Field}
    (success : store.extend number field = .ok next) : store.ChangesOnly next number := by
  obtain ⟨name, fields, signature, added, isStruct, _, _, _, _, rfl⟩ :=
    extend_success_iff.mp success
  have isBefore := shapeAt_ok_iff.mp isStruct
  refine ⟨rfl, size_replace, fun _ different => shapeAt_replace_ne different,
    fun _ => findIdx?_set isBefore rfl, ?_⟩
  intro code
  simp only [internBasic, extend_findBasic? success code]
  cases store.shapes.findIdx? (· = .basic code) with
  | some found => rfl
  | none => exact size_replace

/-- Whatever was done to a store, a struct refuses a field with a new name and
an existing type exactly if the type embeds the struct, and tells a walk from
the one to the other; else it gets the field, and its layout gets the layout
that the type has at that time.  Whatever struct and field are asked for, a
field that is refused in place leaves the store as it was, and one that is
added changes nothing but the struct. -/
theorem extension_decides_exactly (pointerSize : PointerSize) (operations : List Operation) :
    let store := history pointerSize operations
    (∀ number name fields signature field,
      store.shapeAt number = .ok (.struct name fields signature) → field.type < store.size →
      field.name ∉ fields.map Field.name →
        ((∃ cause, store.extend number field = .error cause) ↔
          ReflTransGen store.Embeds field.type number) ∧
        (∀ cause, store.extend number field = .error cause →
          ∃ names, cause = .selfEmbedding name field.name names ∧
            store.Walk number field.type names) ∧
        ∀ next, store.extend number field = .ok next →
          ∃ added, store.signature field.type = .ok added ∧
            next.shapeAt number = .ok (.struct name (fields ++ [field]) (signature ++ added))) ∧
      ∀ number field,
        InPlace.extend number field store =
          settled store (fun next => ((), next)) (store.extend number field) ∧
        (∀ cause left, InPlace.extend number field store = (.error cause, left) → left = store) ∧
        ∀ left, InPlace.extend number field store = (.ok (), left) →
          store.ChangesOnly left number := by
  intro store
  have ordered : store.Ordered := history_ordered pointerSize operations
  refine ⟨?_, ?_⟩
  · intro number name fields signature field isStruct inside fresh
    rcases ordered.extend_decides isStruct inside fresh with
      ⟨names, refused, walk⟩ | ⟨apart, added, laidOut, success⟩
    · rw [refused]
      refine ⟨iff_of_true ⟨_, rfl⟩ walk.reaches, ?_, nofun⟩
      intro cause same
      cases same
      exact ⟨names, rfl, walk⟩
    · rw [success]
      refine ⟨iff_of_false nofun apart, nofun, ?_⟩
      intro next same
      cases same
      exact ⟨added, laidOut, shapeAt_replace_self isStruct⟩
  · intro number field
    rw [InPlace.extend_eq]
    cases extended : store.extend number field with
    | error cause =>
        refine ⟨rfl, ?_, nofun⟩
        intro _ left same
        cases same
        rfl
    | ok next =>
        refine ⟨rfl, nofun, ?_⟩
        intro left same
        cases same
        exact extend_changesOnly extended

example :
    (history .eight [.announce "A", .announce "B", .announce "C", .announce "D",
      .extend 2 ⟨"d", 3⟩, .extend 2 ⟨"b", 1⟩, .extend 1 ⟨"d", 3⟩, .extend 1 ⟨"a", 0⟩,
      .insert (.aliasOf "L" 2)]).extend 0 ⟨"l", 4⟩ =
      .error (.selfEmbedding "A" "l" ["L", "C", "B", "A"]) := by
  decide +kernel

end TypeStore

end CBackend
