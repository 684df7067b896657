import CBackend.Proofs.Description.Loading
import CBackend.Proofs.Failure
import CBackend.Proofs.Program.History

/-!
# Building programs

When the types are built, every callee is resolved against them and inserted.
Callees invoke one another by their position among all entries, which is known
before any of them is built.

Main statement: a description is built exactly if it is well formed.
-/

namespace CBackend

namespace Description

theorem InstructionTerm.resolve_succeeds_iff {names : List String} {term : InstructionTerm} :
    (∃ instruction, term.resolve names = .ok instruction) ↔
      ∀ name ∈ term.invoked?, name ∈ names := by
  cases term with
  | compute operator target left right => exact iff_of_true ⟨_, rfl⟩ nofun
  | branch target test left right => exact iff_of_true ⟨_, rfl⟩ nofun
  | jump target => exact iff_of_true ⟨_, rfl⟩ nofun
  | leave => exact iff_of_true ⟨_, rfl⟩ nofun
  | invoke callee args results =>
      simp only [InstructionTerm.resolve, InstructionTerm.invoked?, Option.mem_def,
        Option.some.injEq, forall_eq']
      cases found : names.idxOf? callee with
      | some number =>
          obtain ⟨inside, same, _⟩ := List.idxOf?_eq_some_iff.mp found
          refine iff_of_true ⟨_, rfl⟩ ?_
          rw [← same]
          exact List.getElem_mem inside
      | none => exact iff_of_false nofun (List.idxOf?_eq_none_iff.mp found)

theorem resolveBlocks_succeeds_iff {names : List String} {blocks : List (List InstructionTerm)} :
    (∃ resolved, resolveBlocks names blocks = .ok resolved) ↔
      ∀ name ∈ blocks.flatMap (·.filterMap InstructionTerm.invoked?), name ∈ names := by
  rw [resolveBlocks, Success.mapM_succeeds_iff]
  simp only [resolveBlock, Success.mapM_succeeds_iff, InstructionTerm.resolve_succeeds_iff]
  simp only [List.mem_flatMap, List.mem_filterMap, Option.mem_def]
  constructor
  · intro each name found
    obtain ⟨block, isBlock, term, isTerm, invokes⟩ := found
    exact each block isBlock term isTerm name invokes
  · intro all block isBlock term isTerm name invokes
    exact all name ⟨block, isBlock, term, isTerm, invokes⟩

/-- Only an unknown callee keeps code from being resolved. -/
theorem resolveBlocks_error {names : List String} {blocks : List (List InstructionTerm)}
    {cause : DescriptionError} (failure : resolveBlocks names blocks = .error cause) :
    cause.InDescription := by
  have instruction : ∀ term : InstructionTerm,
      FailsOnly DescriptionError.InDescription (term.resolve names) := by
    intro term
    cases term with
    | invoke callee args results =>
        simp only [InstructionTerm.resolve]
        cases names.idxOf? callee with
        | some number => exact .ok _
        | none =>
            exact .error (show DescriptionError.InDescription (.noSuchCallee callee) from trivial)
    | _ => exact .ok _
  exact (FailsOnly.mapM fun _ _ => FailsOnly.mapM fun term _ => instruction term) cause failure

def BodyTerm.Means (store : TypeStore) (names : List String) (term : BodyTerm) (body : Body) :
    Prop :=
  List.Forall₂ (TypeTerm.Means store) term.registers body.registers ∧
    resolveBlocks names term.blocks = .ok body.blocks

/-- A callee that says what an entry says; `names` are those of all entries. -/
def CalleeEntry.Means (store : TypeStore) (names : List String) : CalleeEntry → Callee → Prop
  | .native name symbol signature, callee =>
    ∃ type, callee = .native ⟨name, type, symbol⟩ ∧ signature.Means store type
  | .inlined name signature term, callee =>
    ∃ type body, callee = .inlined ⟨name, type, body⟩ ∧ signature.Means store type ∧
      term.Means store names body
  | .compiled name signature term, callee =>
    ∃ type body, callee = .compiled ⟨name, type, body⟩ ∧ signature.Means store type ∧
      term.Means store names body

section Meaning

variable {store next : TypeStore} {names : List String}

theorem BodyTerm.Means.grow (grows : store.Grows next) {term : BodyTerm} {body : Body}
    (means : term.Means store names body) : term.Means next names body := by
  refine ⟨means.1.imp ?_, means.2⟩
  intro type number typeMeans
  exact typeMeans.grow grows type

theorem CalleeEntry.Means.grow (grows : store.Grows next) (entry : CalleeEntry) (callee : Callee)
    (means : entry.Means store names callee) : entry.Means next names callee := by
  cases entry with
  | native name symbol signature =>
      obtain ⟨type, same, typeMeans⟩ := means
      exact ⟨type, same, typeMeans.grow grows signature⟩
  | inlined name signature term =>
      obtain ⟨type, body, same, typeMeans, bodyMeans⟩ := means
      exact ⟨type, body, same, typeMeans.grow grows signature, bodyMeans.grow grows⟩
  | compiled name signature term =>
      obtain ⟨type, body, same, typeMeans, bodyMeans⟩ := means
      exact ⟨type, body, same, typeMeans.grow grows signature, bodyMeans.grow grows⟩

theorem CalleeEntry.Means.name_eq {entry : CalleeEntry} {callee : Callee}
    (means : entry.Means store names callee) : callee.name = entry.name := by
  cases entry with
  | native name symbol signature =>
      obtain ⟨_, rfl, _⟩ := means
      rfl
  | inlined name signature term =>
      obtain ⟨_, _, rfl, _⟩ := means
      rfl
  | compiled name signature term =>
      obtain ⟨_, _, rfl, _⟩ := means
      rfl

theorem names_of_calleesMean {entries : List CalleeEntry} {callees : List Callee}
    (related : List.Forall₂ (CalleeEntry.Means store names) entries callees) :
    callees.map Callee.name = entries.map CalleeEntry.name := by
  induction related with
  | nil => rfl
  | cons first _ induction => rw [List.map_cons, List.map_cons, first.name_eq, induction]

/-- Everything that a callee mentions exists. -/
theorem CalleeEntry.Means.present {entry : CalleeEntry} {callee : Callee}
    (means : entry.Means store names callee) :
    ∀ mentioned ∈ callee.mentions, mentioned < store.size := by
  have bodied : ∀ {signature : SignatureTerm} {type : FunctionType} {term : BodyTerm}
      {body : Body}, signature.Means store type → term.Means store names body →
      ∀ mentioned ∈ type.mentions ++ body.registers, mentioned < store.size := by
    intro signature type term body typeMeans bodyMeans mentioned member
    rcases List.mem_append.mp member with inType | isRegister
    · exact typeMeans.exists mentioned inType
    · obtain ⟨register, _, registerMeans⟩ :=
        Success.related_of_mem bodyMeans.1.flip mentioned isRegister
      exact TypeTerm.Means.exists registerMeans
  cases entry with
  | native name symbol signature =>
      obtain ⟨type, rfl, typeMeans⟩ := means
      intro mentioned member
      apply typeMeans.exists mentioned
      simpa [Callee.mentions, Callee.type, Callee.body?] using member
  | inlined name signature term =>
      obtain ⟨type, body, rfl, typeMeans, bodyMeans⟩ := means
      exact bodied typeMeans bodyMeans
  | compiled name signature term =>
      obtain ⟨type, body, rfl, typeMeans, bodyMeans⟩ := means
      exact bodied typeMeans bodyMeans

end Meaning

/-- The names of types and callees in something that was resolved are all
known. -/
structure Resolved (store : TypeStore) (names references invoked : List String)
    (next : TypeStore) : Prop where
  pads : store.Pads next
  ordered : next.Ordered
  known : ∀ reference ∈ references, store.Knows reference
  invokable : ∀ name ∈ invoked, name ∈ names

/-- Some name of a type or of a callee is not known. -/
def Unresolved (store : TypeStore) (names references invoked : List String) : Prop :=
  (∃ reference ∈ references, ¬ store.Knows reference) ∨ ∃ name ∈ invoked, name ∉ names

section Resolving

variable {store : TypeStore}

theorem BodyTerm.resolve_ends (ordered : store.Ordered) (distinct : store.names.Nodup)
    (names : List String) (term : BodyTerm) :
    Ends (fun body next => Resolved store names term.references term.invoked next ∧
        term.Means next names body)
      (Unresolved store names term.references term.invoked) (term.resolve names store) := by
  have registers := (Outcome.mapM (fun grows type _ means => means.grow grows type)
    (fun ordered distinct type => type.resolve_outcome ordered distinct)
    ordered distinct term.registers).ends
  apply (registers.imp (fun _ _ facts => facts) Or.inl).bind
  intro numbers between facts
  obtain ⟨pads, betweenOrdered, known, means⟩ := facts
  cases ran : resolveBlocks names term.blocks with
  | ok blocks =>
      exact ⟨⟨pads, betweenOrdered, known, resolveBlocks_succeeds_iff.mp ⟨blocks, ran⟩⟩, means, ran⟩
  | error cause =>
      refine ⟨resolveBlocks_error ran, .inr ?_⟩
      by_contra none
      obtain ⟨blocks, success⟩ : ∃ blocks, resolveBlocks names term.blocks = .ok blocks := by
        apply resolveBlocks_succeeds_iff.mpr
        intro name member
        by_contra unknown
        exact none ⟨name, member, unknown⟩
      rw [ran] at success
      cases success

/-- A signature and then a body, put together by `form`. -/
theorem function_ends (ordered : store.Ordered) (distinct : store.names.Nodup)
    (names : List String) (signature : SignatureTerm) (term : BodyTerm)
    (form : FunctionType → Body → Callee) {means : TypeStore → Callee → Prop}
    (meaning : ∀ next type body, signature.Means next type → term.Means next names body →
      means next (form type body)) :
    Ends (fun callee next => Resolved store names (signature.references ++ term.references)
          term.invoked next ∧ means next callee)
      (Unresolved store names (signature.references ++ term.references) term.invoked)
      ((do
        let type ← signature.resolve
        return form type (← term.resolve names) : Resolve Callee) store) := by
  have head := (signature.resolve_outcome ordered distinct).ends
  apply (head.imp (fun _ _ facts => facts) ?_).bind
  · intro type between facts
    obtain ⟨pads, betweenOrdered, known, typeMeans⟩ := facts
    have betweenDistinct : between.names.Nodup := by
      rw [pads.names_eq]
      exact distinct
    apply ((term.resolve_ends betweenOrdered betweenDistinct names).imp
      (fun _ _ facts => facts) ?_).bind
    · intro body next facts
      obtain ⟨resolved, bodyMeans⟩ := facts
      refine ⟨⟨pads.trans resolved.pads, resolved.ordered, ?_, resolved.invokable⟩, ?_⟩
      · intro reference member
        rcases List.mem_append.mp member with early | late
        · exact known reference early
        · exact (pads.knows_iff reference).mp (resolved.known reference late)
      · exact meaning next type body (typeMeans.grow resolved.pads.grows signature) bodyMeans
    · intro unresolved
      rcases unresolved with ⟨reference, member, unknown⟩ | invoked
      · refine .inl ⟨reference, List.mem_append_right _ member, ?_⟩
        rwa [pads.knows_iff] at unknown
      · exact .inr invoked
  · intro unresolved
    obtain ⟨reference, member, unknown⟩ := unresolved
    exact .inl ⟨reference, List.mem_append_left _ member, unknown⟩

theorem CalleeEntry.resolve_ends (ordered : store.Ordered) (distinct : store.names.Nodup)
    (names : List String) (entry : CalleeEntry) :
    Ends (fun callee next => Resolved store names entry.references entry.invoked next ∧
        entry.Means next names callee)
      (Unresolved store names entry.references entry.invoked) (entry.resolve names store) := by
  cases entry with
  | native name symbol signature =>
      have head := (signature.resolve_outcome ordered distinct).ends
      apply (head.imp (fun _ _ facts => facts) Or.inl).bind
      intro type next facts
      obtain ⟨pads, nextOrdered, known, typeMeans⟩ := facts
      exact ⟨⟨pads, nextOrdered, known, nofun⟩, type, rfl, typeMeans⟩
  | inlined name signature term =>
      apply function_ends ordered distinct names signature term (.inlined ⟨name, ·, ·⟩)
      intro next type body typeMeans bodyMeans
      exact ⟨type, body, rfl, typeMeans, bodyMeans⟩
  | compiled name signature term =>
      apply function_ends ordered distinct names signature term (.compiled ⟨name, ·, ·⟩)
      intro next type body typeMeans bodyMeans
      exact ⟨type, body, rfl, typeMeans, bodyMeans⟩

end Resolving

def calleeNames (description : Description) : List String :=
  description.callees.map CalleeEntry.name

/-- A program with the types of a description and the callees of the entries
`done`. -/
structure PartlyBuilt (description : Description) (done : List CalleeEntry)
    (program : Program) : Prop where
  name_eq : program.name = description.name
  types : ∃ store, TypesBuilt description.pointerSize description.types store ∧
    store.Pads program.types
  holds : Holds program.types (structsOf description.types) (othersOf description.types)
  callees : List.Forall₂ (CalleeEntry.Means program.types description.calleeNames) done
    program.callees

/-- The program of a description. -/
abbrev Built (description : Description) (program : Program) : Prop :=
  PartlyBuilt description description.callees program

section Callees

variable {description : Description} {program : Program} {done rest : List CalleeEntry}

theorem PartlyBuilt.knows_iff (partly : PartlyBuilt description done program) (name : String) :
    program.types.Knows name ↔ Nameable description.types description.types name := by
  rw [TypeStore.Knows, partly.holds.names_eq, Nameable, List.map_append]
  simp only [List.mem_append, List.mem_map, mem_structsOf, mem_othersOf, and_assoc]

/-- A callee with a free name whose types exist is inserted. -/
theorem insertCallee_ok {callee : Callee} (free : callee.name ∉ program.callees.map Callee.name)
    (present : ∀ mentioned ∈ callee.mentions, mentioned < program.types.size) :
    program.insertCallee callee =
      .ok (program.callees.length, { program with callees := program.callees ++ [callee] }) := by
  have absent : program.findCallee? callee.name = none := by
    rw [Program.findCallee?, List.findIdx?_eq_none_iff]
    intro other member
    rw [beq_eq_false_iff_ne]
    intro same
    exact free (same ▸ List.mem_map_of_mem member)
  rw [Program.insertCallee, absent, Program.firstMissing_none_iff.mpr present]
  rfl

/-- An entry whose names are all known. -/
def Callable (description : Description) (entry : CalleeEntry) : Prop :=
  (∀ name ∈ entry.references, Nameable description.types description.types name) ∧
    ∀ name ∈ entry.invoked, name ∈ description.calleeNames

theorem PartlyBuilt.insertEntry {entry : CalleeEntry}
    (partly : PartlyBuilt description done program)
    (fresh : entry.name ∉ done.map CalleeEntry.name) :
    (∃ next, insertEntry description.calleeNames program entry = .ok next ∧
      PartlyBuilt description (done ++ [entry]) next ∧ description.Callable entry) ∨
    ∃ cause, insertEntry description.calleeNames program entry = .error cause ∧
      cause.InDescription ∧ ¬ description.Callable entry := by
  have ends := entry.resolve_ends partly.holds.ordered partly.holds.distinct
    description.calleeNames
  unfold Description.insertEntry
  cases ran : entry.resolve description.calleeNames program.types with
  | error cause =>
      rw [ran] at ends
      refine .inr ⟨cause, ?_, ends.1, ?_⟩
      · dsimp only [StateT.run]
        rw [ran]
        rfl
      · intro callable
        rcases ends.2 with ⟨reference, member, unknown⟩ | ⟨name, member, unknown⟩
        · exact unknown ((partly.knows_iff reference).mpr (callable.1 reference member))
        · exact unknown (callable.2 name member)
  | ok result =>
      obtain ⟨callee, types⟩ := result
      rw [ran] at ends
      obtain ⟨resolved, means⟩ := ends
      have kept := partly.callees.imp (CalleeEntry.Means.grow resolved.pads.grows)
      have free : callee.name ∉ program.callees.map Callee.name := by
        rw [names_of_calleesMean partly.callees, means.name_eq]
        exact fresh
      have inserted : Program.insertCallee ⟨program.name, types, program.callees⟩ callee = .ok _ :=
        insertCallee_ok free means.present
      refine .inl ⟨⟨program.name, types, program.callees ++ [callee]⟩, ?_, ?_, ?_⟩
      · dsimp only [StateT.run]
        rw [ran]
        change ((liftM (Program.insertCallee ⟨program.name, types, program.callees⟩ callee) :
          Except DescriptionError (CalleeNumber × Program)) >>= _) = _
        rw [inserted]
        rfl
      · obtain ⟨store, built, pads⟩ := partly.types
        exact ⟨partly.name_eq, ⟨store, built, pads.trans resolved.pads⟩,
          partly.holds.pad resolved.pads resolved.ordered,
          List.rel_append kept (.cons means .nil)⟩
      · refine ⟨?_, resolved.invokable⟩
        intro reference member
        exact (partly.knows_iff reference).mp (resolved.known reference member)

/-- All names are distinct, so an entry is new when its turn comes. -/
theorem PartlyBuilt.insertAll (partly : PartlyBuilt description done program)
    (split : description.callees = done ++ rest) (distinct : description.calleeNames.Nodup) :
    (∃ next, rest.foldlM (Description.insertEntry description.calleeNames) program = .ok next ∧
      Built description next ∧ ∀ entry ∈ rest, description.Callable entry) ∨
    ∃ cause, rest.foldlM (Description.insertEntry description.calleeNames) program =
        .error cause ∧ cause.InDescription ∧ ¬ ∀ entry ∈ rest, description.Callable entry := by
  induction rest generalizing done program with
  | nil =>
      rw [List.append_nil] at split
      refine .inl ⟨program, rfl, ?_, nofun⟩
      rw [Built, split]
      exact partly
  | cons entry rest induction =>
      have fresh : entry.name ∉ done.map CalleeEntry.name := by
        rw [calleeNames, split, List.map_append, List.nodup_append] at distinct
        intro member
        exact distinct.2.2 _ member _ (List.mem_map_of_mem List.mem_cons_self) rfl
      rw [List.foldlM_cons]
      rcases partly.insertEntry fresh with ⟨next, success, further, callable⟩ |
        ⟨cause, failure, told, wrong⟩
      · rw [success]
        rcases induction further (by rw [split, List.append_assoc]; rfl) with
          ⟨last, lastSuccess, built, others⟩ | ⟨cause, failure, told, wrong⟩
        · exact .inl ⟨last, lastSuccess, built, List.forall_mem_cons.mpr ⟨callable, others⟩⟩
        · refine .inr ⟨cause, failure, told, ?_⟩
          intro all
          exact wrong (List.forall_mem_cons.mp all).2
      · rw [failure]
        refine .inr ⟨cause, rfl, told, ?_⟩
        intro all
        exact wrong (all entry List.mem_cons_self)

end Callees

/-- Building a description gives its program, or tells why the description is
not well formed. -/
theorem build_ends (description : Description) :
    (∃ program, description.build = .ok program ∧ description.WellFormed ∧
      Built description program) ∨
    ∃ cause, description.build = .error cause ∧ cause.InDescription ∧
      ¬ description.WellFormed := by
  unfold Description.build
  rcases buildTypes_cases description.pointerSize description.types with
    ⟨store, success, typesWellFormed, built⟩ | ⟨cause, failure, told, wrong⟩
  · rw [success]
    dsimp only [bind, Except.bind]
    rw [← calleeNames]
    cases repeats : firstRepeat [] description.calleeNames with
    | some name =>
        refine .inr ⟨_, rfl, trivial, ?_⟩
        intro wellFormed
        have unrepeated : firstRepeat [] description.calleeNames = none := by
          apply TypeStore.firstRepeat_eq_none_iff.mpr
          exact ⟨wellFormed.calleesDistinct, fun _ _ => List.not_mem_nil⟩
        rw [unrepeated] at repeats
        cases repeats
    | none =>
        have distinct := (TypeStore.firstRepeat_eq_none_iff.mp repeats).1
        have start : PartlyBuilt description [] ⟨description.name, store, []⟩ :=
          ⟨rfl, ⟨store, built, .refl store⟩, built.holds, .nil⟩
        rcases start.insertAll rfl distinct with
          ⟨program, inserted, whole, callable⟩ | ⟨cause, failure, told, wrong⟩
        · refine .inl ⟨program, inserted, ⟨typesWellFormed, distinct, ?_, ?_⟩, whole⟩
          · intro entry member
            exact (callable entry member).1
          · intro entry member
            exact (callable entry member).2
        · refine .inr ⟨cause, failure, told, ?_⟩
          intro wellFormed
          apply wrong
          intro entry member
          exact ⟨wellFormed.nameable entry member, wellFormed.invokable entry member⟩
  · rw [failure]
    refine .inr ⟨cause, rfl, told, ?_⟩
    intro wellFormed
    exact wrong wellFormed.types

theorem build_cases (description : Description) :
    (∃ program, description.build = .ok program ∧ description.WellFormed ∧
      Built description program) ∨
    ∃ cause, description.build = .error cause ∧ ¬ description.WellFormed := by
  rcases build_ends description with success | ⟨cause, failure, _, wrong⟩
  · exact .inl success
  · exact .inr ⟨cause, failure, wrong⟩

theorem Built.pointerSize_eq {description : Description} {program : Program}
    (built : Built description program) :
    program.types.pointerSize = description.pointerSize := by
  obtain ⟨store, typesBuilt, pads⟩ := built.types
  rw [pads.grows.pointerSize, typesBuilt.pointerSize_eq]

theorem built_of_build {description : Description} {program : Program}
    (success : description.build = .ok program) :
    description.WellFormed ∧ Built description program := by
  rcases build_cases description with ⟨other, found, wellFormed, built⟩ | ⟨cause, failure, _⟩
  · rw [success] at found
    cases found
    exact ⟨wellFormed, built⟩
  · rw [success] at failure
    cases failure

/-- A description is built exactly if it is well formed: no name is given
twice, every name in use stands for something that is visible there, and
nothing holds itself by value. -/
theorem build_succeeds_iff (description : Description) :
    (∃ program, description.build = .ok program) ↔ description.WellFormed := by
  rcases build_cases description with ⟨program, success, wellFormed, _⟩ | ⟨cause, failure, wrong⟩
  · exact iff_of_true ⟨program, success⟩ wellFormed
  · refine iff_of_false ?_ wrong
    intro built
    obtain ⟨program, success⟩ := built
    rw [failure] at success
    cases success

end Description

end CBackend
