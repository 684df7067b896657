import CBackend.Proofs.Program.Indexes
import CBackend.Proofs.TypeStore.Bare

/-!
# Numbers that stay valid

Types and callees are known by their numbers, and a number is handed out
before it is known what else will come.  So the indexes of names and of basic
codes must be exact at every point of a run, and what was found once must
stay where it is.

Names of types, basic codes and names of callees are each given once.  From
one point of a run to a later one only structs change, and they change by
further fields at the end; an identifier reads nothing of a struct but its
name, and so it never changes.
-/

namespace CBackend

def Shape.basic? : Shape → Option BasicCode
  | .basic code => some code
  | _ => none

theorem Shape.basic?_eq_some_iff {shape : Shape} {code : BasicCode} :
    shape.basic? = some code ↔ shape = .basic code := by
  cases shape <;> simp [Shape.basic?]

namespace TypeStore

/-- The basic codes of a store, in order. -/
def basics (store : TypeStore) : List BasicCode := store.shapes.filterMap Shape.basic?

section Basics

variable {store next : TypeStore}

theorem findBasic?_iff (distinct : store.basics.Nodup) {code : BasicCode} {number : TypeNumber} :
    store.shapes.findIdx? (· = .basic code) = some number ↔
      store.shapeAt number = .ok (.basic code) := by
  simp only [← Shape.basic?_eq_some_iff, shapeAt_ok_iff]
  rw [findIdx?_mark_iff distinct]
  simp [Shape.basic?_eq_some_iff]

theorem basics_append_other {shape : Shape} (other : shape.basic? = none) :
    (store.append shape).2.basics = store.basics := by
  simp [basics, append, other]

theorem extend_basics {number : TypeNumber} {field : Field}
    (success : store.extend number field = .ok next) : next.basics = store.basics := by
  obtain ⟨name, fields, signature, added, isStruct, _, _, _, _, rfl⟩ :=
    extend_success_iff.mp success
  exact filterMap_set (shapeAt_ok_iff.mp isStruct) rfl

theorem Accepts.basics_nodup {shape : Shape} (accepts : store.Accepts shape)
    (distinct : store.basics.Nodup) : (store.append shape).2.basics.Nodup := by
  cases isCode : shape.basic? with
  | none => rwa [basics_append_other isCode]
  | some code =>
      have isBasic := Shape.basic?_eq_some_iff.mp isCode
      rw [basics, append, List.filterMap_append, List.nodup_append]
      refine ⟨distinct, by simp [isCode], ?_⟩
      intro old member new isNew same
      obtain ⟨found, isFound, isOld⟩ := List.mem_filterMap.mp member
      have isNewCode : new = code := by simpa [isCode, eq_comm] using isNew
      rw [same, isNewCode, Shape.basic?_eq_some_iff] at isOld
      have differs := List.findIdx?_eq_none_iff.mp (accepts.unshared code isBasic) found isFound
      simp [isOld] at differs

theorem after_basics_nodup (distinct : store.basics.Nodup) (operation : Operation) :
    (store.after operation).basics.Nodup := by
  refine after_induction (·.basics.Nodup) ?_ ?_ distinct
  · intro shape _ accepts
    exact accepts.basics_nodup distinct
  · intro store next number field success before
    rwa [extend_basics success]

end Basics

/-- An identifier follows mentions downwards and stops at structs, so what is
added to a store does not change it. -/
theorem Grows.identifier_eq {store next : TypeStore} (grows : store.Grows next)
    {number : TypeNumber} (inside : number < store.size) :
    next.identifier number = store.identifier number := by
  induction number using Nat.strongRecOn with
  | ind number induction =>
      obtain ⟨shape, isShape⟩ := shapeAt_of_lt inside
      obtain ⟨later, isLater, becomes⟩ := grows.shapes number shape isShape
      have below : ∀ lower < number, next.identifier lower = store.identifier lower :=
        fun lower isLower => induction lower isLower (Nat.lt_trans isLower inside)
      rw [identifier, identifier, isShape, isLater]
      simp only [descend_congr below]
      cases becomes with
      | same => rfl
      | fields more added => rfl

theorem after_grows (store : TypeStore) (operation : Operation) :
    store.Grows (store.after operation) :=
  after_keeps (fun step grown => grown.trans step.grows) (Grows.refl store) operation

end TypeStore

namespace Program

theorem findCallee?_iff {program : Program} (distinct : program.CalleesDistinct) {name : String}
    {number : CalleeNumber} :
    program.findCallee? name = some number ↔
      ∃ callee, program.callees[number]? = some callee ∧ callee.name = name := by
  have marked : (program.callees.filterMap fun callee => some callee.name).Nodup := by
    rwa [List.filterMap_eq_map']
  have found := @findIdx?_mark_iff _ _ _ _ _ marked name number
  simpa [findCallee?, Bool.beq_eq_decide_eq] using found

/-- Everything in a program is in the other one too, at the same place. -/
structure Grows (program next : Program) : Prop where
  name : next.name = program.name
  types : program.types.Grows next.types
  callees : program.callees <+: next.callees

theorem Grows.refl (program : Program) : program.Grows program :=
  ⟨rfl, .refl program.types, List.prefix_rfl⟩

theorem Grows.trans {program between next : Program} (first : program.Grows between)
    (second : between.Grows next) : program.Grows next :=
  ⟨second.name.trans first.name, first.types.trans second.types,
    first.callees.trans second.callees⟩

theorem after_grows (program : Program) (operation : Operation) :
    program.Grows (program.after operation) := by
  cases operation with
  | types operation => exact ⟨rfl, program.types.after_grows operation, List.prefix_rfl⟩
  | callee callee =>
      rw [Program.after]
      cases inserted : program.insertCallee callee with
      | error cause => exact .refl program
      | ok result =>
          obtain ⟨number, next⟩ := result
          obtain ⟨rfl, _⟩ := insertCallee_success inserted
          exact ⟨rfl, .refl _, List.prefix_append _ _⟩

theorem run_grows (program : Program) (operations : List Operation) :
    program.Grows (operations.foldl after program) := by
  induction operations generalizing program with
  | nil => exact .refl program
  | cons operation later induction =>
      exact (program.after_grows operation).trans (induction (program.after operation))

theorem history_basics_nodup (name : String) (pointerSize : PointerSize)
    (operations : List Operation) :
    (history name pointerSize operations).types.basics.Nodup := by
  apply @history_induction (fun program => program.types.basics.Nodup) name pointerSize
    List.nodup_nil
  intro program distinct operation
  cases operation with
  | types operation => exact TypeStore.after_basics_nodup distinct operation
  | callee callee =>
      rw [Program.after]
      cases inserted : program.insertCallee callee with
      | error cause => exact distinct
      | ok result =>
          obtain ⟨number, next⟩ := result
          obtain ⟨rfl, _⟩ := insertCallee_success inserted
          exact distinct

end Program

namespace IndexedProgram

/-- The indexes lead exactly to what is there: a name or a basic code to the
one number that has it.  What callees mention exists. -/
structure Exact (indexed : IndexedProgram) : Prop where
  typesFound : ∀ name number, indexed.types.names[name]? = some number ↔
    indexed.types.store.Named name number
  namesDistinct : indexed.types.store.names.Nodup
  codesFound : ∀ code number, indexed.types.codes[code]? = some number ↔
    indexed.types.store.shapeAt number = .ok (.basic code)
  interned : ∀ code number, indexed.types.store.shapeAt number = .ok (.basic code) →
    IndexedStore.Indexing.intern code indexed.types = (.ok number, indexed.types)
  basicsDistinct : indexed.types.store.basics.Nodup
  calleesFound : ∀ (name : String) (number : CalleeNumber),
    indexed.calleeNames[name]? = some number ↔
      ∃ callee, indexed.callees[number]? = some callee ∧ callee.name = name
  calleesDistinct : (indexed.callees.map Callee.name).Nodup
  mentionsExist : ∀ callee ∈ indexed.callees,
    ∀ mentioned ∈ callee.mentions, mentioned < indexed.types.store.size

theorem history_exact (name : String) (pointerSize : PointerSize)
    (operations : List Program.Operation) :
    (history name pointerSize operations).Exact := by
  obtain ⟨same, agrees⟩ := history_agrees name pointerSize operations
  have founded := Program.history_founded name pointerSize operations
  have basics := Program.history_basics_nodup name pointerSize operations
  have callees := Program.history_calleesDistinct name pointerSize operations
  rw [← same] at founded basics callees
  have codesFound : ∀ code number,
      (history name pointerSize operations).types.codes[code]? = some number ↔
        (history name pointerSize operations).types.store.shapeAt number = .ok (.basic code) := by
    intro code number
    rw [agrees.types.codes]
    exact TypeStore.findBasic?_iff basics
  refine ⟨?_, founded.namesDistinct, codesFound, ?_, basics, ?_, callees, founded.mentionsExist⟩
  · intro typeName number
    rw [agrees.types.names]
    exact TypeStore.find?_eq_some_iff founded.namesDistinct
  · intro code number isBasic
    have asked : IndexedStore.Indexing.codeAt? code (history name pointerSize operations).types =
        (.ok (some number), (history name pointerSize operations).types) := by
      rw [IndexedStore.Indexing.codeAt?, (codesFound code number).mpr isBasic]
    exact IndexedStore.bind_ok asked
  · intro calleeName number
    rw [agrees.callees]
    exact Program.findCallee?_iff callees

end IndexedProgram

namespace Program

/-- At every point of a run that keeps indexes, whichever operations failed,
the program is the one without them, and they are exact.  At every later point
each type and each callee is still at its number: a callee is the same, a type
has the same identifier and is the same except that a struct may have further
fields, and their layout, at the end. -/
theorem numbers_stay_valid (name : String) (pointerSize : PointerSize)
    (operations : List Operation) :
    let indexed := IndexedProgram.history name pointerSize operations
    let program := history name pointerSize operations
    indexed.program = program ∧ indexed.Exact ∧
      ∀ further, let later := history name pointerSize (operations ++ further)
        (∀ number shape, program.types.shapeAt number = .ok shape →
          ∃ grown, later.types.shapeAt number = .ok grown ∧ shape.Grows grown ∧
            later.types.identifier number = program.types.identifier number) ∧
        ∀ (number : CalleeNumber) (callee : Callee), program.callees[number]? = some callee →
          later.callees[number]? = some callee := by
  intro indexed program
  refine ⟨(IndexedProgram.history_agrees name pointerSize operations).1,
    IndexedProgram.history_exact name pointerSize operations, ?_⟩
  intro further later
  have grows : program.Grows later := by
    have split : later = further.foldl after program := List.foldl_append
    rw [split]
    exact run_grows program further
  refine ⟨?_, ?_⟩
  · intro number shape isShape
    obtain ⟨grown, isGrown, becomes⟩ := grows.types.shapes number shape isShape
    exact ⟨grown, isGrown, becomes,
      grows.types.identifier_eq (TypeStore.lt_of_shapeAt isShape)⟩
  · intro number callee isCallee
    obtain ⟨inside, rfl⟩ := List.getElem?_eq_some_iff.mp isCallee
    exact List.prefix_iff_getElem?.mp grows.callees number inside

end Program

end CBackend
