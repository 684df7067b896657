import Mathlib.Data.List.Nodup
import Mathlib.Data.Finset.Card
import CBackend.Lowering.Parameters
import CBackend.Proofs.C.Names

/-!
# Parameter names that serve

However the declared names of parameters collide, the names a definition
gives them are usable and pairwise distinct.  Kept names are distinct because
a repeat is not kept; a generated name avoids every kept name, every name
generated before it and every reserved name, and among one more candidate
than there are names in use one is free.
-/

namespace CBackend.Parameters

theorem toList_candidate_zero (index : Nat) :
    (candidate index 0).toList = 'p' :: Nat.toDigits 10 index := by
  simp [candidate, toString]

theorem toList_candidate_succ (index suffix : Nat) :
    (candidate index (suffix + 1)).toList =
      'p' :: (Nat.toDigits 10 index ++ '_' :: Nat.toDigits 10 (suffix + 1)) := by
  simp [candidate, toString]

private theorem underscore_not_mem_candidate_zero (index : Nat) :
    '_' ∉ (candidate index 0).toList := by
  rw [toList_candidate_zero]
  simp

theorem candidate_injective (index : Nat) : Function.Injective (candidate index) := by
  intro left right same
  have characters := congrArg String.toList same
  cases left with
  | zero =>
      cases right with
      | zero => rfl
      | succ right =>
          have absent := underscore_not_mem_candidate_zero index
          rw [characters, toList_candidate_succ] at absent
          exact absurd (by simp) absent
  | succ left =>
      cases right with
      | zero =>
          have absent := underscore_not_mem_candidate_zero index
          rw [← characters, toList_candidate_succ] at absent
          exact absurd (by simp) absent
      | succ right =>
          rw [toList_candidate_succ, toList_candidate_succ] at characters
          have digits := List.append_cancel_left (List.cons.inj characters).2
          exact C.decimal_injective (List.cons.inj digits).2

theorem candidate_head (index suffix : Nat) :
    ∃ rest, (candidate index suffix).toList = 'p' :: rest := by
  cases suffix with
  | zero => exact ⟨_, toList_candidate_zero index⟩
  | succ suffix => exact ⟨_, toList_candidate_succ index suffix⟩

private theorem candidate_last (index suffix : Nat) :
    ∃ digit, (candidate index suffix).toList.getLast? = some digit ∧
      digit.isDigit = true := by
  have last : ∀ number : Nat, ∃ digit,
      (Nat.toDigits 10 number).getLast? = some digit ∧ digit.isDigit = true := by
    intro number
    have present : Nat.toDigits 10 number ≠ [] := Nat.toDigits_ne_nil
    refine ⟨_, List.getLast?_eq_some_getLast present, ?_⟩
    exact Nat.isDigit_of_mem_toDigits (by decide) (by decide)
      (List.getLast_mem present)
  cases suffix with
  | zero =>
      obtain ⟨digit, found, isDigit⟩ := last index
      refine ⟨digit, ?_, isDigit⟩
      rw [toList_candidate_zero, List.getLast?_cons, found]
      rfl
  | succ suffix =>
      obtain ⟨digit, found, isDigit⟩ := last (suffix + 1)
      refine ⟨digit, ?_, isDigit⟩
      rw [toList_candidate_succ, ← List.cons_append,
        List.getLast?_append_of_ne_nil _ (List.cons_ne_nil _ _),
        List.getLast?_cons, found]
      rfl

private theorem keyword_head {word : String} (member : word ∈ keywords) :
    word.toList.head? ≠ some 'p' := by
  have all : ∀ word ∈ keywords, word.toList.head? ≠ some 'p' := by decide +kernel
  exact all word member

/-- Candidates have none of the defects that a declared name may have, apart
from being reserved. -/
theorem candidate_isUsable {reserved : List String} {index suffix : Nat}
    (free : candidate index suffix ∉ reserved) :
    isUsable reserved (candidate index suffix) = true := by
  obtain ⟨rest, head⟩ := candidate_head index suffix
  obtain ⟨digit, last, isDigit⟩ := candidate_last index suffix
  have nonempty : candidate index suffix ≠ "" := by
    intro empty
    rw [empty] at head
    cases head
  have notRegister : looksLikeRegister (candidate index suffix) = false := by
    simp [looksLikeRegister, head]
  have notTemporary : looksLikeTemporary (candidate index suffix) = false := by
    rw [looksLikeTemporary, Bool.eq_false_iff]
    intro ending
    obtain ⟨start, same⟩ := List.isSuffixOf_iff_suffix.mp ending
    rw [← same, List.getLast?_append_of_ne_nil _ (by decide)] at last
    have letter : digit = 't' := by
      simpa using last.symm
    rw [letter] at isDigit
    exact absurd isDigit (by decide)
  have notKeyword : candidate index suffix ∉ keywords := by
    intro member
    apply keyword_head member
    rw [head]
    rfl
  simp [isUsable, nonempty, notRegister, notTemporary, notKeyword, free]

/-- Some candidate among one more than there are names in use is free. -/
private theorem exists_free_candidate (used : List String) (index : Nat) :
    ∃ suffix ∈ List.range (used.length + 1), candidate index suffix ∉ used := by
  by_contra none
  have covered : ∀ suffix ∈ List.range (used.length + 1),
      candidate index suffix ∈ used := by
    intro suffix member
    by_contra free
    exact none ⟨suffix, member, free⟩
  have distinct : ((List.range (used.length + 1)).map (candidate index)).Nodup :=
    List.nodup_range.map (candidate_injective index)
  have subset : (List.range (used.length + 1)).map (candidate index) ⊆ used := by
    intro name member
    obtain ⟨suffix, inRange, rfl⟩ := List.mem_map.mp member
    exact covered suffix inRange
  have short := (distinct.subperm subset).length_le
  rw [List.length_map, List.length_range] at short
  omega

/-- The name that is found is the first candidate that is not in use. -/
theorem freshName_spec (used : List String) (index : Nat) :
    ∃ suffix, freshName used index = candidate index suffix ∧
      candidate index suffix ∉ used ∧ suffix ≤ used.length ∧
      ∀ earlier < suffix, candidate index earlier ∈ used := by
  obtain ⟨suffix, inRange, free⟩ := exists_free_candidate used index
  cases search : (List.range (used.length + 1)).find? fun suffix =>
      !used.contains (candidate index suffix) with
  | none =>
      have taken := List.find?_eq_none.mp search suffix inRange
      simp [free] at taken
  | some first =>
      obtain ⟨found, inside, earlier⟩ := List.find?_range_eq_some.mp search
      refine ⟨first, ?_, by simpa using found, ?_, by simpa using earlier⟩
      · rw [freshName, search]
        rfl
      · exact Nat.le_of_lt_succ (List.mem_range.mp inside)

/-- The names that are kept among marked fields. -/
def keptNames (marked : List (Field × Bool)) : List String :=
  (marked.filter (·.2)).map (·.1.name)

private theorem keptNames_kept (reserved taken : List String) (params : List Field) :
    (keptNames (params.zip (kept reserved taken (params.map Field.name)))).Nodup ∧
      ∀ name ∈ keptNames (params.zip (kept reserved taken (params.map Field.name))),
        name ∉ taken ∧ isUsable reserved name = true := by
  induction params generalizing taken with
  | nil => simp [keptNames]
  | cons param params induction =>
      rw [List.map_cons, kept]
      split
      · rename_i keeps
        simp only [Bool.and_eq_true, Bool.not_eq_true', List.contains_eq_mem,
          decide_eq_false_iff_not] at keeps
        obtain ⟨distinct, usable⟩ := induction (param.name :: taken)
        constructor
        · refine List.nodup_cons.mpr ⟨?_, distinct⟩
          intro member
          exact (usable _ member).1 List.mem_cons_self
        · intro name member
          rcases List.mem_cons.mp member with rfl | later
          · exact ⟨keeps.2, keeps.1⟩
          · have free := (usable name later).1
            exact ⟨fun old => free (List.mem_cons_of_mem _ old),
              (usable name later).2⟩
      · exact induction taken

private theorem rename_names {reserved taken : List String} {index : Nat}
    {marked : List (Field × Bool)}
    (distinct : (keptNames marked).Nodup)
    (covered : ∀ name ∈ keptNames marked, name ∈ taken) :
    ((rename reserved taken index marked).map Field.name).Nodup ∧
      ∀ name ∈ (rename reserved taken index marked).map Field.name,
        name ∈ keptNames marked ∨ (name ∉ taken ∧ isUsable reserved name = true) := by
  induction marked generalizing taken index with
  | nil => simp [rename]
  | cons first later induction =>
      obtain ⟨field, mark⟩ := first
      cases mark with
      | true =>
          have split : keptNames ((field, true) :: later) =
              field.name :: keptNames later := rfl
          rw [split] at distinct covered
          obtain ⟨laterDistinct, laterNames⟩ := @induction taken (index + 1)
            (List.nodup_cons.mp distinct).2
            (fun name member => covered name (List.mem_cons_of_mem _ member))
          rw [rename, List.map_cons]
          constructor
          · refine List.nodup_cons.mpr ⟨?_, laterDistinct⟩
            intro member
            rcases laterNames _ member with old | fresh
            · exact (List.nodup_cons.mp distinct).1 old
            · exact fresh.1 (covered _ List.mem_cons_self)
          · intro name member
            rw [split]
            rcases List.mem_cons.mp member with rfl | inLater
            · exact Or.inl List.mem_cons_self
            · rcases laterNames name inLater with old | fresh
              · exact Or.inl (List.mem_cons_of_mem _ old)
              · exact Or.inr fresh
      | false =>
          have split : keptNames ((field, false) :: later) = keptNames later := rfl
          rw [split] at distinct covered
          obtain ⟨suffix, generated, free, _⟩ :=
            freshName_spec (taken ++ reserved) index
          rw [List.mem_append, not_or] at free
          obtain ⟨laterDistinct, laterNames⟩ := @induction
            (candidate index suffix :: taken) (index + 1) distinct
            (fun name member => List.mem_cons_of_mem _ (covered name member))
          simp only [rename, generated, List.map_cons]
          constructor
          · refine List.nodup_cons.mpr ⟨?_, laterDistinct⟩
            intro member
            rcases laterNames _ member with old | fresh
            · exact free.1 (covered _ old)
            · exact fresh.1 List.mem_cons_self
          · intro name member
            rw [split]
            rcases List.mem_cons.mp member with rfl | inLater
            · exact Or.inr ⟨free.1, candidate_isUsable free.2⟩
            · rcases laterNames name inLater with old | fresh
              · exact Or.inl old
              · exact Or.inr ⟨fun inTaken =>
                  fresh.1 (List.mem_cons_of_mem _ inTaken), fresh.2⟩

/-- The names of a definition's parameters are pairwise distinct. -/
theorem forDefinition_nodup (reserved : List String) (params : List Field) :
    ((forDefinition reserved params).map Field.name).Nodup := by
  obtain ⟨distinct, _⟩ := keptNames_kept reserved [] params
  exact (rename_names distinct fun _ member => member).1

/-- The names of a definition's parameters are usable. -/
theorem forDefinition_isUsable {reserved : List String} {params : List Field}
    {name : String}
    (member : name ∈ (forDefinition reserved params).map Field.name) :
    isUsable reserved name = true := by
  obtain ⟨distinct, usable⟩ := keptNames_kept reserved [] params
  rcases (rename_names distinct fun _ member => member).2 name member with
    old | fresh
  · exact (usable name old).2
  · exact fresh.2

private theorem kept_length (reserved taken names : List String) :
    (kept reserved taken names).length = names.length := by
  induction names generalizing taken with
  | nil => rfl
  | cons name names induction =>
      rw [kept]
      split <;> simp [induction]

private theorem rename_types (reserved taken : List String) (index : Nat)
    (marked : List (Field × Bool)) :
    (rename reserved taken index marked).map Field.type =
      marked.map (·.1.type) := by
  induction marked generalizing taken index with
  | nil => rfl
  | cons first later induction =>
      obtain ⟨field, mark⟩ := first
      cases mark <;> simp [rename, induction]

/-- Renaming changes no type and no position. -/
theorem forDefinition_types (reserved : List String) (params : List Field) :
    (forDefinition reserved params).map Field.type = params.map Field.type := by
  have lengths : params.length ≤
      (kept reserved [] (params.map Field.name)).length := by
    simp [kept_length]
  rw [forDefinition, rename_types]
  calc
    (params.zip (kept reserved [] (params.map Field.name))).map (·.1.type)
        = ((params.zip (kept reserved [] (params.map Field.name))).map Prod.fst).map
            Field.type := by rw [List.map_map]; rfl
    _ = params.map Field.type := by rw [List.map_fst_zip lengths]

private theorem kept_getElem? (reserved taken : List String) {names : List String}
    {index : Nat} {name : String} (found : names[index]? = some name) :
    (kept reserved taken names)[index]? = some (isUsable reserved name &&
      !taken.contains name && !(names.take index).contains name) := by
  induction names generalizing taken index with
  | nil => cases found
  | cons first names induction =>
      cases index with
      | zero =>
          cases found
          rw [kept]
          split <;> simp_all
      | succ index =>
          rw [List.getElem?_cons_succ] at found
          rw [kept]
          split
          · rename_i keeps
            rw [List.getElem?_cons_succ, induction _ found]
            by_cases same : name = first
            · simp [same]
            · simp [same]
          · rename_i drops
            rw [List.getElem?_cons_succ, induction _ found]
            by_cases same : name = first
            · simp_all
            · simp [same]

private theorem rename_getElem? (reserved taken : List String) (start : Nat)
    {marked : List (Field × Bool)} {index : Nat} {field : Field} {keeps : Bool}
    (found : marked[index]? = some (field, keeps)) :
    ∃ renamed, (rename reserved taken start marked)[index]? = some renamed ∧
      (keeps = true → renamed = field) ∧
      (keeps = false → ∃ suffix, renamed.name = candidate (start + index) suffix) := by
  induction marked generalizing taken start index with
  | nil => cases found
  | cons first marked induction =>
      obtain ⟨other, mark⟩ := first
      cases index with
      | zero =>
          cases found
          cases keeps with
          | true => exact ⟨field, rfl, fun _ => rfl, nofun⟩
          | false =>
              obtain ⟨suffix, fresh, _⟩ := freshName_spec (taken ++ reserved) start
              exact ⟨_, rfl, nofun, fun _ => ⟨suffix, fresh⟩⟩
      | succ index =>
          rw [List.getElem?_cons_succ] at found
          have position : start + (index + 1) = start + 1 + index := by omega
          rw [position]
          cases mark with
          | true => exact induction taken (start + 1) found
          | false => exact induction _ (start + 1) found

/-- A parameter keeps its name if it is usable and does not repeat an earlier
one; otherwise it gets a candidate. -/
theorem forDefinition_getElem? (reserved : List String) {params : List Field}
    {index : Nat} {param : Field} (found : params[index]? = some param) :
    ∃ renamed, (forDefinition reserved params)[index]? = some renamed ∧
      if isUsable reserved param.name = true ∧
          param.name ∉ (params.take index).map Field.name then renamed = param
      else ∃ suffix, renamed.name = candidate index suffix := by
  have named : (params.map Field.name)[index]? = some param.name := by
    rw [List.getElem?_map, found]
    rfl
  have marked : (params.zip (kept reserved [] (params.map Field.name)))[index]? =
      some (param, decide (isUsable reserved param.name = true ∧
        param.name ∉ (params.take index).map Field.name)) := by
    refine List.getElem?_zip_eq_some.mpr ⟨found, ?_⟩
    rw [kept_getElem? reserved [] named]
    simp
  obtain ⟨renamed, isRenamed, keeps, drops⟩ := rename_getElem? reserved
    (keptNames (params.zip (kept reserved [] (params.map Field.name)))) 0 marked
  refine ⟨renamed, isRenamed, ?_⟩
  split
  · rename_i stays
    exact keeps (decide_eq_true stays)
  · rename_i goes
    rw [Nat.zero_add] at drops
    exact drops (decide_eq_false goes)

theorem looksLikeRegister_register (number : RegisterNumber) :
    looksLikeRegister (C.Variable.register .function number).text = true := by
  have digits : ∀ digit ∈ Nat.toDigits 10 number, digit.isDigit = true := by
    intro digit member
    exact Nat.isDigit_of_mem_toDigits (by decide) (by decide) member
  rw [looksLikeRegister, C.Variable.toList_function_register]
  cases numeral : Nat.toDigits 10 number with
  | nil => exact absurd numeral Nat.toDigits_ne_nil
  | cons digit rest =>
      rw [numeral] at digits
      exact List.all_eq_true.mpr digits

theorem looksLikeTemporary_result (callee : String) :
    looksLikeTemporary (C.Variable.result callee).text = true := by
  rw [looksLikeTemporary, C.Variable.toList_result, List.isSuffixOf_iff_suffix]
  exact List.suffix_append _ _

end CBackend.Parameters
