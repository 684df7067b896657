import CBackend.Program.Basic
import CBackend.Proofs.TypeStore.Growth

/-!
# Histories of a program

A program comes about from an empty one by operations on its store of types
and by insertions of callees, in any order.  An operation that fails leaves
the program as it was.  Types are never removed, so those that a callee
mentioned when it came are there ever after.
-/

namespace CBackend.Program

inductive Operation where
  | types (operation : TypeStore.Operation)
  | callee (callee : Callee)

/-- The program after an operation, whether it fails or not. -/
def after (program : Program) : Operation → Program
  | .types operation => { program with types := program.types.after operation }
  | .callee callee =>
    match program.insertCallee callee with
    | .ok (_, next) => next
    | .error _ => program

def history (name : String) (pointerSize : PointerSize) (operations : List Operation) :
    Program :=
  operations.foldl after (empty name pointerSize)

/-- What all programs have in common. -/
structure Founded (program : Program) : Prop where
  ordered : program.types.Ordered
  namesDistinct : program.types.names.Nodup
  mentionsExist : ∀ callee ∈ program.callees,
    ∀ mentioned ∈ callee.mentions, mentioned < program.types.size

theorem Founded.typeExists {program : Program} (founded : program.Founded) {callee : Callee}
    (member : callee ∈ program.callees) :
    ∀ mentioned ∈ callee.type.mentions, mentioned < program.types.size :=
  fun mentioned isMentioned =>
    founded.mentionsExist callee member mentioned (List.mem_append_left _ isMentioned)

theorem Founded.registersExist {program : Program} (founded : program.Founded)
    {callee : Callee} (member : callee ∈ program.callees) {body : Body}
    (isBody : callee.body? = some body) :
    ∀ type ∈ body.registers, type < program.types.size := by
  intro type isRegister
  apply founded.mentionsExist callee member
  rw [Callee.mentions, isBody]
  exact List.mem_append_right _ isRegister

theorem firstMissing_none_iff {types : TypeStore} {numbers : List TypeNumber} :
    firstMissing types numbers = none ↔ ∀ number ∈ numbers, number < types.size := by
  rw [firstMissing, List.findSome?_eq_none_iff]
  refine forall₂_congr fun number _ => ?_
  constructor
  · intro found
    cases isShape : types.shapeAt number with
    | ok shape => exact TypeStore.lt_of_shapeAt isShape
    | error cause =>
        rw [isShape] at found
        cases found
  · intro inside
    obtain ⟨shape, isShape⟩ := TypeStore.shapeAt_of_lt inside
    rw [isShape]

theorem insertCallee_success {program : Program} {callee : Callee}
    {result : CalleeNumber × Program}
    (success : program.insertCallee callee = .ok result) :
    result.2 = { program with callees := program.callees ++ [callee] } ∧
      ∀ mentioned ∈ callee.mentions, mentioned < program.types.size := by
  unfold insertCallee at success
  split at success
  · cases success
  · split at success
    · cases success
    · rename_i present
      cases success
      exact ⟨rfl, firstMissing_none_iff.mp present⟩

theorem insertCallee_name_free {program : Program} {callee : Callee}
    {result : CalleeNumber × Program}
    (success : program.insertCallee callee = .ok result) :
    callee.name ∉ program.callees.map Callee.name := by
  unfold insertCallee at success
  split at success
  · cases success
  · rename_i free
    intro taken
    obtain ⟨other, member, sameName⟩ := List.mem_map.mp taken
    have differs := List.findIdx?_eq_none_iff.mp (Option.not_isSome_iff_eq_none.mp free)
      other member
    simp [sameName] at differs

theorem Founded.after {program : Program} (founded : program.Founded)
    (operation : Operation) : (program.after operation).Founded := by
  cases operation with
  | types operation =>
      refine ⟨founded.ordered.after operation,
        TypeStore.after_names_nodup founded.namesDistinct operation, ?_⟩
      intro callee member mentioned isMentioned
      exact Nat.lt_of_lt_of_le (founded.mentionsExist callee member mentioned isMentioned)
        (program.types.after_size_le operation)
  | callee callee =>
      rw [Program.after]
      cases inserted : program.insertCallee callee with
      | error cause => exact founded
      | ok result =>
          obtain ⟨number, next⟩ := result
          obtain ⟨rfl, present⟩ := insertCallee_success inserted
          refine ⟨founded.ordered, founded.namesDistinct, ?_⟩
          intro other member
          rcases List.mem_append.mp member with old | last
          · exact founded.mentionsExist other old
          · rw [List.mem_singleton.mp last]
            exact present

/-- What an empty program has and every operation keeps holds of all
histories. -/
theorem history_induction {property : Program → Prop} {name : String}
    {pointerSize : PointerSize} (initial : property (empty name pointerSize))
    (step : ∀ {program}, property program → ∀ operation, property (program.after operation))
    (operations : List Operation) : property (history name pointerSize operations) := by
  have run : ∀ program, property program →
      property (operations.foldl Program.after program) := by
    induction operations with
    | nil =>
        intro program holds
        exact holds
    | cons operation operations induction =>
        intro program holds
        exact induction _ (step holds operation)
  exact run _ initial

theorem history_founded (name : String) (pointerSize : PointerSize)
    (operations : List Operation) : (history name pointerSize operations).Founded :=
  history_induction ⟨TypeStore.empty_ordered pointerSize, List.nodup_nil, nofun⟩
    Founded.after operations

/-- No two callees have one name. -/
def CalleesDistinct (program : Program) : Prop :=
  (program.callees.map Callee.name).Nodup

theorem CalleesDistinct.after {program : Program} (distinct : program.CalleesDistinct)
    (operation : Operation) : (program.after operation).CalleesDistinct := by
  cases operation with
  | types operation => exact distinct
  | callee callee =>
      rw [Program.after]
      cases inserted : program.insertCallee callee with
      | error cause => exact distinct
      | ok result =>
          obtain ⟨number, next⟩ := result
          obtain ⟨rfl, _⟩ := insertCallee_success inserted
          rw [CalleesDistinct, List.map_append, List.map_singleton, ← List.concat_eq_append]
          exact distinct.concat (insertCallee_name_free inserted)

theorem history_calleesDistinct (name : String) (pointerSize : PointerSize)
    (operations : List Operation) :
    (history name pointerSize operations).CalleesDistinct :=
  history_induction (List.nodup_nil : (empty name pointerSize).CalleesDistinct)
    CalleesDistinct.after operations

end CBackend.Program
