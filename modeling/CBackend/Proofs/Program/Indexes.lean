import CBackend.Proofs.Program.History
import CBackend.Proofs.TypeStore.Walks

/-!
# Programs with indexes

A search of a whole store for a name can be spared by an index that is kept
beside the store.  Here a store is changed in place together with an index of
names and one of basic codes, and a program together with an index of the
names of its callees.  An index is written where something is put at the end,
and is asked where the store was searched.

The indexes agree with what they stand for as long as each operation leaves
them so, also one that fails halfway.  Then every answer is the same as
without them.
-/

namespace CBackend

instance : Hashable BasicCode := ⟨fun basic => hash basic.code⟩

structure IndexedStore where
  store : TypeStore
  names : Std.HashMap String TypeNumber
  codes : Std.HashMap BasicCode TypeNumber

namespace IndexedStore

open TypeStore (InPlace)

def empty (pointerSize : PointerSize) : IndexedStore := ⟨.empty pointerSize, ∅, ∅⟩

/-- A computation on a store and its indexes, which are changed in place. -/
abbrev Indexing := ExceptT StoreError (StateM IndexedStore)

namespace Indexing

/-- A computation that leaves the indexes alone. -/
def onStore (action : InPlace α) : Indexing α := fun indexed =>
  ((action indexed.store).1, { indexed with store := (action indexed.store).2 })

def isTaken (name : String) : Indexing Bool := fun indexed =>
  (.ok (indexed.names.contains name), indexed)

def codeAt? (code : BasicCode) : Indexing (Option TypeNumber) := fun indexed =>
  (.ok indexed.codes[code]?, indexed)

/-- Puts a shape at the end, and its name into the index. -/
def push (shape : Shape) : Indexing TypeNumber := fun indexed =>
  (.ok indexed.store.size, {
    store := (indexed.store.append shape).2
    names := match shape.name? with
      | some name => indexed.names.insert name indexed.store.size
      | none => indexed.names
    codes := indexed.codes })

def writeCode (code : BasicCode) (number : TypeNumber) : Indexing Unit := fun indexed =>
  (.ok (), { indexed with codes := indexed.codes.insert code number })

def pushNamed (shape : Shape) : Indexing TypeNumber := do
  if let some name := shape.name? then
    if ← isTaken name then
      throw (.nameTaken name)
  push shape

def intern (code : BasicCode) : Indexing TypeNumber := do
  match ← codeAt? code with
  | some number => return number
  | none =>
    let number ← push (.basic code)
    writeCode code number
    return number

def announce (name : String) : Indexing TypeNumber := pushNamed (.struct name [] [])

def extend (number : TypeNumber) (field : Field) : Indexing Unit :=
  onStore (InPlace.extend number field)

def build (name : String) (fields : List Field) : Indexing TypeNumber := do
  let number ← announce name
  fields.forM (extend number)
  return number

def insert (shape : Shape) : Indexing TypeNumber := do
  shape.mentions.forM fun number => do let _ ← onStore (InPlace.ask (·.shapeAt number))
  match shape with
  | .struct name fields _ =>
    if let some field := firstRepeat [] (fields.map Field.name) then
      throw (.fieldTaken name field)
    build name fields
  | .basic code => intern code
  | other => pushNamed other

end Indexing

/-- The indexes have what a search of the store would find. -/
structure Agrees (indexed : IndexedStore) : Prop where
  names : ∀ name, indexed.names[name]? = indexed.store.find? name
  codes : ∀ code, indexed.codes[code]? = indexed.store.shapes.findIdx? (· = .basic code)

theorem empty_agrees (pointerSize : PointerSize) : (empty pointerSize).Agrees :=
  ⟨fun _ => Std.HashMap.getElem?_empty, fun _ => Std.HashMap.getElem?_empty⟩

/-- A computation with indexes gives the same answer as one without, leaves
the same store, and leaves indexes that agree with it. -/
def Follows (action : Indexing α) (plain : InPlace α) : Prop :=
  ∀ indexed : IndexedStore, indexed.Agrees →
    (action indexed).1 = (plain indexed.store).1 ∧
      (action indexed).2.store = (plain indexed.store).2 ∧ (action indexed).2.Agrees

namespace Follows

theorem pure (value : α) : Follows (Pure.pure value) (Pure.pure value) :=
  fun _ agrees => ⟨rfl, rfl, agrees⟩

theorem throw (cause : StoreError) :
    Follows (throw cause : Indexing α) (throw cause : InPlace α) :=
  fun _ agrees => ⟨rfl, rfl, agrees⟩

theorem bind {action : Indexing α} {plain : InPlace α} {next : α → Indexing β}
    {plainNext : α → InPlace β} (first : Follows action plain)
    (later : ∀ value, Follows (next value) (plainNext value)) :
    Follows (action >>= next) (plain >>= plainNext) := by
  intro indexed agrees
  obtain ⟨sameAnswer, sameStore, stillAgrees⟩ := first indexed agrees
  show (ExceptT.bindCont next (action indexed).1 (action indexed).2).1 =
      (ExceptT.bindCont plainNext (plain indexed.store).1 (plain indexed.store).2).1 ∧
    (ExceptT.bindCont next (action indexed).1 (action indexed).2).2.store =
      (ExceptT.bindCont plainNext (plain indexed.store).1 (plain indexed.store).2).2 ∧
    (ExceptT.bindCont next (action indexed).1 (action indexed).2).2.Agrees
  rw [← sameAnswer, ← sameStore]
  cases (action indexed).1 with
  | error cause => exact ⟨rfl, rfl, stillAgrees⟩
  | ok value => exact later value _ stillAgrees

theorem forM {items : List α} {action : α → Indexing Unit} {plain : α → InPlace Unit}
    (each : ∀ item, Follows (action item) (plain item)) :
    Follows (items.forM action) (items.forM plain) := by
  induction items with
  | nil => exact pure ()
  | cons item items induction => exact bind (each item) fun _ => induction

/-- What changes the store so that no search notices needs no index. -/
theorem onStore {action : InPlace α}
    (names : ∀ store name, (action store).2.find? name = store.find? name)
    (codes : ∀ store code, (action store).2.shapes.findIdx? (· = .basic code) =
      store.shapes.findIdx? (· = .basic code)) : Follows (.onStore action) action := by
  intro indexed agrees
  refine ⟨rfl, rfl, ?_, ?_⟩
  · intro name
    exact (agrees.names name).trans (names indexed.store name).symm
  · intro code
    exact (agrees.codes code).trans (codes indexed.store code).symm

end Follows

section Operations

variable {indexed : IndexedStore} {shape : Shape}

theorem bind_ok {action : Indexing α} {next : α → Indexing β} {between : IndexedStore} {value : α}
    (success : action indexed = (.ok value, between)) :
    (action >>= next) indexed = next value between := by
  show ExceptT.bindCont next (action indexed).1 (action indexed).2 = _
  rw [success]
  rfl

theorem find?_append (store : TypeStore) (shape : Shape) (name : String) :
    (store.append shape).2.find? name =
      (store.find? name).or (if shape.name? = some name then some store.size else none) := by
  simp only [TypeStore.find?, TypeStore.append, List.findIdx?_append, TypeStore.size]
  split <;> simp_all

theorem findBasic?_append (store : TypeStore) (shape : Shape) (code : BasicCode) :
    (store.append shape).2.shapes.findIdx? (· = .basic code) =
      (store.shapes.findIdx? (· = .basic code)).or
        (if shape = .basic code then some store.size else none) := by
  simp only [TypeStore.append, List.findIdx?_append, TypeStore.size]
  split <;> simp_all

/-- The index of names follows a shape whose name is free. -/
theorem Agrees.push_names (agrees : indexed.Agrees)
    (free : ∀ name, shape.name? = some name → indexed.store.find? name = none) (name : String) :
    (Indexing.push shape indexed).2.names[name]? =
      (indexed.store.append shape).2.find? name := by
  rw [find?_append, ← agrees.names]
  cases hasName : shape.name? with
  | none => simp [Indexing.push, hasName]
  | some own =>
      have ownFree := free own hasName
      rw [← agrees.names] at ownFree
      simp only [Indexing.push, hasName, Std.HashMap.getElem?_insert, Option.some.injEq,
        beq_iff_eq]
      split
      · rename_i same
        rw [← same, ownFree]
        rfl
      · simp

/-- A shape that is not basic is put at the end if its name is free. -/
theorem pushNamed_follows (other : ∀ code, shape ≠ .basic code) :
    Follows (.pushNamed shape) (.pushNamed shape) := by
  intro indexed agrees
  have codes : ∀ code, indexed.codes[code]? =
      (indexed.store.append shape).2.shapes.findIdx? (· = .basic code) := by
    intro code
    rw [findBasic?_append, if_neg (other code), Option.or_none, agrees.codes]
  rw [InPlace.pushNamed_eq]
  unfold Indexing.pushNamed TypeStore.appendNamed
  cases hasName : shape.name? with
  | none =>
      refine ⟨rfl, rfl, agrees.push_names ?_, codes⟩
      intro name isName
      cases hasName.symm.trans isName
  | some name =>
      have taken : Indexing.isTaken name indexed =
          (.ok (indexed.store.find? name).isSome, indexed) := by
        rw [Indexing.isTaken, Std.HashMap.contains_eq_isSome_getElem?, agrees.names]
      dsimp only
      rw [bind_ok taken]
      cases isFound : indexed.store.find? name with
      | some number => exact ⟨rfl, rfl, agrees⟩
      | none =>
          refine ⟨rfl, rfl, agrees.push_names ?_, codes⟩
          intro own isOwn
          cases hasName.symm.trans isOwn
          exact isFound

/-- A basic code is written into its index right after it was put at the end. -/
theorem intern_follows (code : BasicCode) : Follows (.intern code) (.intern code) := by
  intro indexed agrees
  have asked : Indexing.codeAt? code indexed =
      (.ok (indexed.store.shapes.findIdx? (· = .basic code)), indexed) := by
    rw [Indexing.codeAt?, agrees.codes]
  rw [InPlace.intern_eq, Indexing.intern, bind_ok asked, TypeStore.internBasic]
  cases isFound : indexed.store.shapes.findIdx? (· = .basic code) with
  | some number => exact ⟨rfl, rfl, agrees⟩
  | none =>
      have names : ∀ name, (Indexing.push (.basic code) indexed).2.names[name]? =
          (indexed.store.append (.basic code)).2.find? name := by
        apply agrees.push_names
        intro name isName
        cases isName
      refine ⟨rfl, rfl, names, ?_⟩
      intro other
      show (indexed.codes.insert code indexed.store.size)[other]? =
        (indexed.store.append (.basic code)).2.shapes.findIdx? (· = .basic other)
      rw [findBasic?_append, Std.HashMap.getElem?_insert, ← agrees.codes]
      simp only [beq_iff_eq, Shape.basic.injEq]
      split
      · rename_i same
        rw [← same, agrees.codes, isFound]
        rfl
      · simp

/-- Fields are in no index. -/
theorem extend_follows (number : TypeNumber) (field : Field) :
    Follows (.extend number field) (.extend number field) := by
  apply Follows.onStore
  · intro store name
    rw [InPlace.extend_eq]
    cases extended : store.extend number field with
    | error cause => rfl
    | ok next => exact (TypeStore.extend_changesOnly extended).names name
  · intro store code
    rw [InPlace.extend_eq]
    cases extended : store.extend number field with
    | error cause => rfl
    | ok next => exact TypeStore.extend_findBasic? extended code

theorem build_follows (name : String) (fields : List Field) :
    Follows (.build name fields) (.build name fields) :=
  .bind (pushNamed_follows (by simp)) fun number =>
    .bind (.forM (extend_follows number)) fun _ => .pure number

theorem insert_follows (shape : Shape) : Follows (.insert shape) (.insert shape) := by
  refine .bind (.forM fun number => .bind ?_ fun _ => .pure ()) fun _ => ?_
  · exact .onStore (fun _ _ => rfl) (fun _ _ => rfl)
  · cases shape with
    | struct name fields signature =>
        dsimp only
        cases firstRepeat [] (fields.map Field.name) with
        | some field => exact .bind (.throw _) fun _ => build_follows name fields
        | none => exact build_follows name fields
    | basic code => exact intern_follows code
    | pointer _ _ => exact pushNamed_follows (by simp)
    | array _ _ => exact pushNamed_follows (by simp)
    | function _ => exact pushNamed_follows (by simp)
    | trait _ _ => exact pushNamed_follows (by simp)
    | aliasOf _ _ => exact pushNamed_follows (by simp)

/-- An operation on a store and its indexes, which are changed in place. -/
def indexing : TypeStore.Operation → Indexing Unit
  | .insert shape => do let _ ← Indexing.insert shape
  | .intern code => do let _ ← Indexing.intern code
  | .announce name => do let _ ← Indexing.announce name
  | .extend struct field => Indexing.extend struct field

theorem indexing_follows (operation : TypeStore.Operation) :
    Follows (indexing operation) operation.inPlace := by
  cases operation with
  | insert shape => exact .bind (insert_follows shape) fun _ => .pure ()
  | intern code => exact .bind (intern_follows code) fun _ => .pure ()
  | announce name => exact .bind (pushNamed_follows (by simp)) fun _ => .pure ()
  | extend struct field => exact extend_follows struct field

end Operations

end IndexedStore

structure IndexedProgram where
  name : String
  types : IndexedStore
  callees : List Callee
  calleeNames : Std.HashMap String CalleeNumber

namespace IndexedProgram

def empty (name : String) (pointerSize : PointerSize) : IndexedProgram :=
  ⟨name, .empty pointerSize, [], ∅⟩

/-- The program without its indexes. -/
def program (indexed : IndexedProgram) : Program :=
  ⟨indexed.name, indexed.types.store, indexed.callees⟩

/-- Inserts a callee whose name is not in the index and whose types exist. -/
def insertCallee (indexed : IndexedProgram) (callee : Callee) :
    Except ProgramError CalleeNumber × IndexedProgram :=
  if indexed.calleeNames.contains callee.name then (.error (.calleeTaken callee.name), indexed)
  else
    match Program.firstMissing indexed.types.store callee.mentions with
    | some cause => (.error (.missingType callee.name cause), indexed)
    | none => (.ok indexed.callees.length, { indexed with
        callees := indexed.callees ++ [callee]
        calleeNames := indexed.calleeNames.insert callee.name indexed.callees.length })

/-- The program after an operation, whether it fails or not. -/
def after (indexed : IndexedProgram) : Program.Operation → IndexedProgram
  | .types operation =>
    { indexed with types := (IndexedStore.indexing operation indexed.types).2 }
  | .callee callee => (indexed.insertCallee callee).2

def history (name : String) (pointerSize : PointerSize) (operations : List Program.Operation) :
    IndexedProgram :=
  operations.foldl after (empty name pointerSize)

structure Agrees (indexed : IndexedProgram) : Prop where
  types : indexed.types.Agrees
  callees : ∀ name, indexed.calleeNames[name]? = indexed.program.findCallee? name

theorem findCallee?_append (program : Program) (callee : Callee) (name : String) :
    Program.findCallee? { program with callees := program.callees ++ [callee] } name =
      (program.findCallee? name).or
        (if callee.name = name then some program.callees.length else none) := by
  simp only [Program.findCallee?, List.findIdx?_append]
  split <;> simp_all

/-- A callee is inserted as without the index, which then has it. -/
theorem Agrees.insertCallee {indexed : IndexedProgram} (agrees : indexed.Agrees)
    (callee : Callee) :
    (indexed.insertCallee callee).1 = (indexed.program.insertCallee callee).map Prod.fst ∧
      (indexed.insertCallee callee).2.program = indexed.program.after (.callee callee) ∧
      (indexed.insertCallee callee).2.Agrees := by
  have taken : indexed.calleeNames.contains callee.name =
      (indexed.program.findCallee? callee.name).isSome := by
    rw [Std.HashMap.contains_eq_isSome_getElem?, agrees.callees]
  have sameTypes : indexed.program.types = indexed.types.store := rfl
  rw [IndexedProgram.insertCallee, Program.after, Program.insertCallee, taken, sameTypes]
  cases isFound : indexed.program.findCallee? callee.name with
  | some number => exact ⟨rfl, rfl, agrees⟩
  | none =>
      simp only [Option.isSome_none, Bool.false_eq_true, if_false]
      cases Program.firstMissing indexed.types.store callee.mentions with
      | some cause => exact ⟨rfl, rfl, agrees⟩
      | none =>
          refine ⟨rfl, rfl, agrees.types, ?_⟩
          intro name
          refine Eq.trans ?_ (findCallee?_append indexed.program callee name).symm
          rw [Std.HashMap.getElem?_insert, agrees.callees]
          simp only [beq_iff_eq]
          split
          · rename_i same
            rw [← same, isFound]
            rfl
          · simp

/-- What an operation leaves is what it leaves without indexes, and the
indexes agree with it. -/
theorem Agrees.after {indexed : IndexedProgram} (agrees : indexed.Agrees)
    (ordered : indexed.types.store.Ordered) (operation : Program.Operation) :
    (indexed.after operation).program = indexed.program.after operation ∧
      (indexed.after operation).Agrees := by
  cases operation with
  | types operation =>
      obtain ⟨_, sameStore, typesAgree⟩ :=
        IndexedStore.indexing_follows operation indexed.types agrees.types
      rw [ordered.inPlace_eq operation] at sameStore
      exact ⟨congrArg (Program.mk indexed.name · indexed.callees) sameStore, typesAgree,
        agrees.callees⟩
  | callee callee => exact (agrees.insertCallee callee).2

theorem history_agrees (name : String) (pointerSize : PointerSize)
    (operations : List Program.Operation) :
    (history name pointerSize operations).program =
        Program.history name pointerSize operations ∧
      (history name pointerSize operations).Agrees := by
  have run : ∀ indexed : IndexedProgram, indexed.Agrees → indexed.program.Founded →
      (operations.foldl after indexed).program =
          operations.foldl Program.after indexed.program ∧
        (operations.foldl after indexed).Agrees := by
    induction operations with
    | nil =>
        intro indexed agrees _
        exact ⟨rfl, agrees⟩
    | cons operation later induction =>
        intro indexed agrees founded
        obtain ⟨same, stillAgrees⟩ := agrees.after founded.ordered operation
        rw [List.foldl_cons, List.foldl_cons, ← same]
        exact induction _ stillAgrees (by rw [same]; exact founded.after operation)
  exact run (empty name pointerSize)
    ⟨IndexedStore.empty_agrees pointerSize, fun _ => Std.HashMap.getElem?_empty⟩
    ⟨TypeStore.empty_ordered pointerSize, List.nodup_nil, nofun⟩

end IndexedProgram

end CBackend
