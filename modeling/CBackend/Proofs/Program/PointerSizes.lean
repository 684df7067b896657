import CBackend.Program.Listing
import CBackend.Proofs.Lowering.Bare
import CBackend.Proofs.Program.History
import CBackend.Proofs.TypeStore.PointerSizes

/-!
# What the size of a pointer decides

The same operations on programs for pointers of four and of eight bytes have
the same answers and lead to programs that differ in stored signatures only.
The pointer codes of both targets have one mnemonic, and nothing else that is
written out reads a layout, so the listing and everything generated are the
same.
-/

namespace CBackend.Program

/-- What an operation answers. -/
inductive Answer where
  | ofType (answer : Except StoreError (Option TypeNumber))
  | ofCallee (answer : Except ProgramError CalleeNumber)

def Operation.answer (program : Program) : Operation → Answer
  | .types operation => .ofType (operation.answer program.types)
  | .callee inserted => .ofCallee ((program.insertCallee inserted).map (·.1))

/-- The answers of operations that are run one after the other. -/
def answers (program : Program) : List Operation → List Answer
  | [] => []
  | operation :: later => operation.answer program :: (program.after operation).answers later

/-- The same program for two targets. -/
structure Resized (narrow wide : Program) : Prop where
  name_eq : narrow.name = wide.name
  types : narrow.types.Resized wide.types
  callees_eq : narrow.callees = wide.callees

namespace Resized

variable {narrow wide : Program}

theorem bare_eq (resized : narrow.Resized wide) : narrow.bare = wide.bare := by
  rw [bare, bare, resized.name_eq, resized.types.bare_eq, resized.callees_eq]

theorem firstMissing_eq {narrow wide : TypeStore} (resized : narrow.Resized wide) :
    firstMissing narrow = firstMissing wide := by
  funext numbers
  unfold firstMissing
  congr
  funext number
  have alike := resized.shapeAt number
  generalize narrow.shapeAt number = first at alike
  generalize wide.shapeAt number = second at alike
  cases alike <;> rfl

theorem insertCallee (resized : narrow.Resized wide) (callee : Callee) :
    Alike (fun first second => first.1 = second.1 ∧ first.2.Resized second.2)
      (narrow.insertCallee callee) (wide.insertCallee callee) := by
  unfold Program.insertCallee
  simp only [findCallee?, resized.callees_eq, firstMissing_eq resized.types]
  by_cases taken : (wide.callees.findIdx? (·.name == callee.name)).isSome
  · simp only [taken, if_true]
    exact .error _
  · simp only [taken]
    cases firstMissing wide.types callee.mentions with
    | some cause => exact .error _
    | none => exact .ok ⟨rfl, resized.name_eq, resized.types, rfl⟩

theorem after (resized : narrow.Resized wide) (operation : Operation) :
    (narrow.after operation).Resized (wide.after operation) := by
  cases operation with
  | types operation => exact ⟨resized.name_eq, resized.types.after operation, resized.callees_eq⟩
  | callee callee =>
      have inserted := resized.insertCallee callee
      simp only [Program.after]
      generalize narrow.insertCallee callee = first at inserted
      generalize wide.insertCallee callee = second at inserted
      cases inserted with
      | ok next => exact next.2
      | error cause => exact resized

theorem answer_eq (resized : narrow.Resized wide) (operation : Operation) :
    operation.answer narrow = operation.answer wide := by
  cases operation with
  | types operation => exact congrArg Answer.ofType (resized.types.answer_eq operation)
  | callee callee =>
      apply congrArg Answer.ofCallee
      exact ((resized.insertCallee callee).map fun _ _ added => added.1).eq

/-- A run keeps two programs the same and gives the same answers. -/
theorem run (resized : narrow.Resized wide) (operations : List Operation) :
    narrow.answers operations = wide.answers operations ∧
      (operations.foldl Program.after narrow).Resized (operations.foldl Program.after wide) := by
  induction operations generalizing narrow wide with
  | nil => exact ⟨rfl, resized⟩
  | cons operation later induction =>
      obtain ⟨answers, last⟩ := induction (resized.after operation)
      refine ⟨?_, last⟩
      rw [Program.answers, Program.answers, resized.answer_eq, answers]

theorem header_eq (resized : narrow.Resized wide) : narrow.header = wide.header := by
  rw [← bare_header, resized.bare_eq, bare_header]

theorem source_eq (resized : narrow.Resized wide) : narrow.source = wide.source := by
  rw [← bare_source, resized.bare_eq, bare_source]

theorem output_eq (resized : narrow.Resized wide) : narrow.output = wide.output := by
  rw [output, output, resized.header_eq, resized.source_eq]

theorem typeLine_eq {narrow wide : TypeStore} {first second : Shape} (resized : narrow.Resized wide)
    (related : first.Resized second) (number : TypeNumber) :
    typeLine narrow first number = typeLine wide second number := by
  have word : first.word = second.word := by cases related <;> rfl
  apply Alike.eq
  simp only [typeLine, resized.identifier_eq, word]
  refine (Alike.of_eq rfl).bind fun name _ same => ?_
  subst same
  refine (resized.signature number).bind fun _ _ layout => ?_
  rw [layout.text_eq]
  exact .of_eq rfl

theorem calleeLines_eq {narrow wide : TypeStore} (resized : narrow.Resized wide) :
    calleeLines narrow = calleeLines wide := by
  funext callee number
  simp only [calleeLines, bodyLines, registerLine, resized.identifier_eq]

theorem mapM_zipIdx_eq {α β γ ε : Type} {relation : α → β → Prop} {items : List α} {values : List β}
    {first : α × Nat → Except ε γ} {second : β × Nat → Except ε γ}
    (same : ∀ item value, relation item value →
      ∀ index, first (item, index) = second (value, index))
    (related : List.Forall₂ relation items values) (start : Nat) :
    (items.zipIdx start).mapM first = (values.zipIdx start).mapM second := by
  induction related generalizing start with
  | nil => rfl
  | @cons item value _ _ head _ induction =>
      rw [List.zipIdx_cons, List.zipIdx_cons, List.mapM_cons, List.mapM_cons,
        same item value head, induction]

theorem listing_eq (resized : narrow.Resized wide) : narrow.listing = wide.listing := by
  unfold listing
  rw [calleeLines_eq resized.types, resized.callees_eq, resized.name_eq]
  congr 1
  exact mapM_zipIdx_eq (fun _ _ related number => typeLine_eq resized.types related number)
    resized.types.shapes 0

end Resized

/-- Run for pointers of four and of eight bytes, the same operations have the
same answers, and the two programs are the same in everything but the pointer
codes of signatures. -/
theorem pointerSize_only_in_signatures (name : String) (operations : List Operation) :
    let narrow := history name .four operations
    let wide := history name .eight operations
    (empty name .four).answers operations = (empty name .eight).answers operations ∧
      List.Forall₂ Shape.Resized narrow.types.shapes wide.types.shapes ∧
      narrow.callees = wide.callees ∧
      (∀ number, Alike Signature.Resized (narrow.types.signature number)
        (wide.types.signature number)) ∧
      (∀ number < narrow.types.size, ∃ signature, narrow.types.signature number = .ok signature) ∧
      (narrow.types.find? = wide.types.find? ∧ narrow.types.unalias = wide.types.unalias ∧
        narrow.types.identifier = wide.types.identifier ∧
        narrow.types.embeddedStructs = wide.types.embeddedStructs ∧
        narrow.findCallee? = wide.findCallee?) ∧
      narrow.listing = wide.listing ∧ narrow.header = wide.header ∧ narrow.source = wide.source ∧
      narrow.output = wide.output := by
  intro narrow wide
  have start : (empty name .four).Resized (empty name .eight) := ⟨rfl, ⟨rfl, rfl, .nil⟩, rfl⟩
  obtain ⟨answers, resized⟩ := start.run operations
  have types : narrow.types.Resized wide.types := resized.types
  have callees : narrow.findCallee? = wide.findCallee? := by
    funext name
    exact congrArg (·.findIdx? (·.name == name)) resized.callees_eq
  refine ⟨answers, types.shapes, resized.callees_eq, types.signature, ?_, ?_, ?_⟩
  · intro number inside
    have answered := (history_founded name .four operations).ordered.signature_answers number
    rwa [TypeStore.Answers, if_pos inside] at answered
  · exact ⟨types.find?_eq, types.unalias_eq, types.identifier_eq, types.embeddedStructs_eq, callees⟩
  · exact ⟨resized.listing_eq, resized.header_eq, resized.source_eq, resized.output_eq⟩

end CBackend.Program
