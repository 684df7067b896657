import CBackend.Proofs.Description.Building

/-!
# Reading programs back

A program can be written as a description again: a number of a type becomes
the term for it, and the number of an invoked callee becomes the name of the
callee.  Only smaller numbers are visited for a term, which is enough because
structs, traits and aliases are written by their names.

Main statement: reading back what was built from a description gives that
description, with the structs moved before the traits and aliases.
-/

namespace CBackend

open Description

namespace TypeStore

/-- A field whose type is read by `visit`. -/
def fieldBy (visit : TypeNumber → Option TypeTerm) (field : Field) : Option FieldTerm :=
  return ⟨field.name, ← visit field.type⟩

def signatureBy (visit : TypeNumber → Option TypeTerm) (type : FunctionType) :
    Option SignatureTerm :=
  return ⟨← type.params.mapM (fieldBy visit), ← type.results.mapM (fieldBy visit)⟩

/-- The term for a type. -/
def term? (store : TypeStore) (number : TypeNumber) : Option TypeTerm := do
  let visit (mentioned : TypeNumber) : Option TypeTerm :=
    if _below : mentioned < number then store.term? mentioned else none
  match ← store.shapes[number]? with
  | .basic code => return .named code.mnemonic
  | .pointer mode pointee => return .pointer mode (← visit pointee)
  | .array element capacity => return .array (← visit element) capacity
  | .function type => return .function (← signatureBy visit type)
  | .struct name .. | .trait name _ | .aliasOf name _ => return .named name
termination_by number

def prototypeTerm? (store : TypeStore) (prototype : Prototype) : Option PrototypeTerm :=
  return ⟨prototype.name, ← signatureBy store.term? prototype.type⟩

/-- The entry that declares a shape, which must have a name. -/
def entry? (store : TypeStore) : Shape → Option TypeEntry
  | .struct name fields _ => return .struct name (← fields.mapM (fieldBy store.term?))
  | .trait name prototypes => return .trait name (← prototypes.mapM store.prototypeTerm?)
  | .aliasOf name target => return .aliasOf name (← store.term? target)
  | .basic _ | .pointer .. | .array .. | .function _ => none

end TypeStore

namespace Program

/-- An instruction with the name of the callee that it invokes. -/
def instructionTerm? (program : Program) : Instruction → Option InstructionTerm
  | .compute operator target left right => some (.compute operator target left right)
  | .branch target test left right => some (.branch target test left right)
  | .jump target => some (.jump target)
  | .invoke number args results => do
    let callee ← program.callees[number]?
    return .invoke callee.name args results
  | .leave => some .leave

def bodyTerm? (program : Program) (body : Body) : Option BodyTerm :=
  return ⟨← body.registers.mapM program.types.term?,
    ← body.blocks.mapM fun block => block.mapM program.instructionTerm?⟩

def calleeEntry? (program : Program) : Callee → Option CalleeEntry
  | .native function =>
    return .native function.name function.symbol
      (← TypeStore.signatureBy program.types.term? function.type)
  | .inlined function =>
    return .inlined function.name (← TypeStore.signatureBy program.types.term? function.type)
      (← program.bodyTerm? function.body)
  | .compiled function =>
    return .compiled function.name (← TypeStore.signatureBy program.types.term? function.type)
      (← program.bodyTerm? function.body)

/-- The description of a program: its named types in the order of the store,
then its callees. -/
def describe? (program : Program) : Option Description := do
  let named := program.types.shapes.filter (·.name?.isSome)
  let types ← named.mapM program.types.entry?
  let callees ← program.callees.mapM program.calleeEntry?
  return ⟨program.name, program.types.pointerSize, types, callees⟩

end Program

/-- A list is read when each of its members is. -/
theorem mapM_eq_some {action : α → Option β} {items : List α} {values : List β}
    (related : List.Forall₂ (fun value item => action item = some value) values items) :
    items.mapM action = some values := by
  induction related with
  | nil => rfl
  | cons first _ induction =>
      rw [List.mapM_cons, first, induction]
      rfl

namespace Description

/-- The types on a list are read as the terms that mean them. -/
def ReadsAll (store : TypeStore) (visit : TypeNumber → Option TypeTerm)
    (numbers : List TypeNumber) : Prop :=
  ∀ number ∈ numbers, ∀ term : TypeTerm, term.Means store number → visit number = some term

section Types

variable {store : TypeStore} {visit : TypeNumber → Option TypeTerm}

theorem fieldsBy_eq_some {terms : List FieldTerm} {fields : List Field}
    (related : List.Forall₂ (FieldTerm.Means store) terms fields)
    (reads : ReadsAll store visit (fields.map Field.type)) :
    fields.mapM (TypeStore.fieldBy visit) = some terms := by
  apply mapM_eq_some
  induction related with
  | nil => exact .nil
  | @cons term field terms fields first _ induction =>
      apply List.Forall₂.cons
      · have read := reads field.type List.mem_cons_self term.type first.type
        obtain ⟨name, type⟩ := term
        simp [TypeStore.fieldBy, read, first.name_eq]
      · apply induction
        intro number member
        exact reads number (List.mem_cons_of_mem _ member)

theorem signatureBy_eq_some {signature : SignatureTerm} {type : FunctionType}
    (means : signature.Means store type) (reads : ReadsAll store visit type.mentions) :
    TypeStore.signatureBy visit type = some signature := by
  obtain ⟨params, results⟩ := signature
  rw [SignatureTerm.Means, fieldsMean_iff, fieldsMean_iff] at means
  have part : ∀ fields : List Field, fields ⊆ type.params ++ type.results →
      ReadsAll store visit (fields.map Field.type) := by
    intro fields inside number member
    exact reads number (List.map_subset Field.type inside member)
  have paramsRead := fieldsBy_eq_some means.1 (part _ (List.subset_append_left _ _))
  have resultsRead := fieldsBy_eq_some means.2 (part _ (List.subset_append_right _ _))
  simp [TypeStore.signatureBy, paramsRead, resultsRead]

/-- A type is read as any term that means it.  A struct is not entered, and all
other mentions go to smaller numbers. -/
theorem TypeTerm.Means.term?_eq (ordered : store.Ordered) {term : TypeTerm}
    {number : TypeNumber} (means : term.Means store number) :
    store.term? number = some term := by
  induction number using Nat.strongRecOn generalizing term with
  | ind number induction =>
      have visits : ∀ {shape : Shape}, store.shapeAt number = .ok shape →
          shape.isStruct = false →
          ReadsAll store (fun mentioned =>
            if mentioned < number then store.term? mentioned else none) shape.mentions := by
        intro shape isShape noStruct mentioned member inner innerMeans
        have below := ordered.downward number shape isShape noStruct mentioned member
        simpa [below] using induction mentioned below innerMeans
      rw [TypeStore.term?]
      cases term with
      | named name =>
          rw [TypeTerm.Means, TypeStore.NameMeans] at means
          cases spelled : BasicCode.ofMnemonic? name with
          | some code =>
              rw [spelled] at means
              simp [TypeStore.shapeAt_ok_iff.mp means, BasicCode.mnemonic_ofMnemonic? spelled]
          | none =>
              rw [spelled] at means
              obtain ⟨shape, isShape, hasName⟩ := means
              rw [TypeStore.shapeAt_ok_iff.mp isShape]
              cases shape <;> cases hasName <;> rfl
      | pointer mode pointee =>
          rw [TypeTerm.Means] at means
          obtain ⟨inner, isShape, innerMeans⟩ := means
          have read := visits isShape rfl inner List.mem_cons_self pointee innerMeans
          simp [TypeStore.shapeAt_ok_iff.mp isShape, read]
      | array element capacity =>
          rw [TypeTerm.Means] at means
          obtain ⟨inner, isShape, innerMeans⟩ := means
          have read := visits isShape rfl inner List.mem_cons_self element innerMeans
          simp [TypeStore.shapeAt_ok_iff.mp isShape, read]
      | function signature =>
          rw [TypeTerm.Means] at means
          obtain ⟨type, isShape, typeMeans⟩ := means
          have read := signatureBy_eq_some typeMeans (visits isShape rfl)
          simp [TypeStore.shapeAt_ok_iff.mp isShape, read]

theorem reads (ordered : store.Ordered) (numbers : List TypeNumber) :
    ReadsAll store store.term? numbers := by
  intro number _ term means
  exact means.term?_eq ordered

theorem TypeEntry.Means.entry?_eq (ordered : store.Ordered) {entry : TypeEntry} {shape : Shape}
    (means : entry.Means store shape) : store.entry? shape = some entry := by
  cases entry with
  | struct name terms =>
      obtain ⟨fields, signature, rfl, related⟩ := means
      simp [TypeStore.entry?, fieldsBy_eq_some related (reads ordered _)]
  | trait name terms =>
      obtain ⟨prototypes, rfl, related⟩ := means
      have read : prototypes.mapM store.prototypeTerm? = some terms := by
        apply mapM_eq_some
        apply related.imp
        intro term prototype prototypeMeans
        obtain ⟨sameName, typeMeans⟩ := prototypeMeans
        simp [TypeStore.prototypeTerm?, signatureBy_eq_some typeMeans (reads ordered _), sameName]
      simp [TypeStore.entry?, read]
  | aliasOf name term =>
      obtain ⟨target, rfl, targetMeans⟩ := means
      simp [TypeStore.entry?, targetMeans.term?_eq ordered]

/-- The named types of a store are read as the entries that it holds. -/
theorem Holds.entries_eq {structs others : List TypeEntry} (holds : Holds store structs others) :
    (store.shapes.filter (·.name?.isSome)).mapM store.entry? = some (structs ++ others) := by
  obtain ⟨front, tail, same, frontMeans, tailMeans⟩ := holds.shapes
  have allNamed : front.filter (·.name?.isSome) = front := by
    apply List.filter_eq_self.mpr
    intro shape member
    obtain ⟨entry, _, means⟩ := Success.related_of_mem frontMeans.flip shape member
    simp [TypeEntry.Means.name?_eq means]
  apply mapM_eq_some
  rw [same, List.filter_append, allNamed]
  apply (List.rel_append frontMeans tailMeans).imp
  intro entry shape means
  exact means.entry?_eq holds.ordered

end Types

section Callees

variable {program : Program} {names : List String}

theorem instructionTerm?_eq (named : program.callees.map Callee.name = names)
    {term : InstructionTerm} {instruction : Instruction}
    (resolved : term.resolve names = .ok instruction) :
    program.instructionTerm? instruction = some term := by
  cases term with
  | compute operator target left right =>
      cases resolved
      rfl
  | branch target test left right =>
      cases resolved
      rfl
  | jump target =>
      cases resolved
      rfl
  | leave =>
      cases resolved
      rfl
  | invoke callee args results =>
      rw [InstructionTerm.resolve] at resolved
      cases found : names.idxOf? callee with
      | none =>
          rw [found] at resolved
          cases resolved
      | some number =>
          rw [found] at resolved
          cases resolved
          obtain ⟨inside, same, _⟩ := List.idxOf?_eq_some_iff.mp found
          have isCallee : (program.callees.map Callee.name)[number]? = some callee := by
            rw [named, List.getElem?_eq_getElem inside, same]
          rw [List.getElem?_map] at isCallee
          obtain ⟨invoked, isInvoked, sameName⟩ := Option.map_eq_some_iff.mp isCallee
          simp [Program.instructionTerm?, isInvoked, sameName]

theorem BodyTerm.Means.bodyTerm?_eq (ordered : program.types.Ordered)
    (named : program.callees.map Callee.name = names) {term : BodyTerm} {body : Body}
    (means : term.Means program.types names body) : program.bodyTerm? body = some term := by
  obtain ⟨registersMean, resolved⟩ := means
  have registers : body.registers.mapM program.types.term? = some term.registers := by
    apply mapM_eq_some
    apply registersMean.imp
    intro type number typeMeans
    exact typeMeans.term?_eq ordered
  have blocks : body.blocks.mapM (fun block => block.mapM program.instructionTerm?) =
      some term.blocks := by
    apply mapM_eq_some
    apply (Success.mapM_iff.mp resolved).imp
    intro terms block blockResolved
    apply mapM_eq_some
    apply (Success.mapM_iff.mp blockResolved).imp
    intro instructionTerm instruction instructionResolved
    exact instructionTerm?_eq named instructionResolved
  simp [Program.bodyTerm?, registers, blocks]

theorem CalleeEntry.Means.calleeEntry?_eq (ordered : program.types.Ordered)
    (named : program.callees.map Callee.name = names) {entry : CalleeEntry} {callee : Callee}
    (means : entry.Means program.types names callee) :
    program.calleeEntry? callee = some entry := by
  cases entry with
  | native name symbol signature =>
      obtain ⟨type, rfl, typeMeans⟩ := means
      simp [Program.calleeEntry?, signatureBy_eq_some typeMeans (reads ordered _)]
  | inlined name signature term =>
      obtain ⟨type, body, rfl, typeMeans, bodyMeans⟩ := means
      simp [Program.calleeEntry?, signatureBy_eq_some typeMeans (reads ordered _),
        bodyMeans.bodyTerm?_eq ordered named]
  | compiled name signature term =>
      obtain ⟨type, body, rfl, typeMeans, bodyMeans⟩ := means
      simp [Program.calleeEntry?, signatureBy_eq_some typeMeans (reads ordered _),
        bodyMeans.bodyTerm?_eq ordered named]

end Callees

variable {description : Description} {program : Program}

theorem Built.names_eq (built : Built description program) :
    program.callees.map Callee.name = description.calleeNames :=
  names_of_calleesMean built.callees

theorem Built.describe?_eq (built : Built description program) :
    program.describe? =
      some { description with
        types := structsOf description.types ++ othersOf description.types } := by
  have callees : program.callees.mapM program.calleeEntry? = some description.callees := by
    apply mapM_eq_some
    apply built.callees.imp
    intro entry callee means
    exact means.calleeEntry?_eq built.holds.ordered built.names_eq
  simp [Program.describe?, built.holds.entries_eq, callees, built.name_eq, built.pointerSize_eq]

theorem Built.findCallee?_eq (built : Built description program)
    (distinct : description.calleeNames.Nodup) {number : CalleeNumber} {entry : CalleeEntry}
    (isEntry : description.callees[number]? = some entry) :
    program.findCallee? entry.name = some number := by
  have search : program.findCallee? entry.name = description.calleeNames.idxOf? entry.name := by
    rw [← built.names_eq, List.idxOf?, List.findIdx?_map]
    rfl
  have isName : description.calleeNames[number]? = some entry.name := by
    simp [calleeNames, isEntry]
  obtain ⟨inside, same⟩ := List.getElem?_eq_some_iff.mp isName
  rw [search, List.idxOf?_eq_some_iff]
  refine ⟨inside, same, ?_⟩
  intro earlier before repeated
  rw [← same, distinct.getElem_inj_iff] at repeated
  omega

/-- Reading a program back gives the description from which it was built. -/
theorem describe?_build (description : Description) (program : Program)
    (success : description.build = .ok program) :
    program.describe? =
        some { description with
          types := structsOf description.types ++ othersOf description.types } ∧
      ∀ number entry, description.callees[number]? = some entry →
        program.findCallee? entry.name = some number := by
  obtain ⟨wellFormed, built⟩ := built_of_build success
  refine ⟨built.describe?_eq, ?_⟩
  intro number entry isEntry
  exact built.findCallee?_eq wellFormed.calleesDistinct isEntry

/-- Two structs that point to one another, a trait and an alias between them,
and two functions that invoke one another. -/
def ringDescription : Description where
  name := "ring"
  pointerSize := .eight
  types := [
    .struct "Node" [⟨"next", .pointer .safe (.named "Ring")⟩, ⟨"tag", .named "u8"⟩],
    .trait "Visitor" [⟨"visit", ⟨[⟨"node", .pointer .raw (.named "Node")⟩], []⟩⟩],
    .aliasOf "Slots" (.array (.named "Ring") 4),
    .struct "Ring" [⟨"head", .named "Node"⟩]]
  callees := [
    .compiled "even" ⟨[⟨"n", .named "u32"⟩], [⟨"r", .named "u32"⟩]⟩
      ⟨[.named "u32", .named "u32"], [[.invoke "odd" [0] [1], .leave]]⟩,
    .compiled "odd" ⟨[⟨"n", .named "u32"⟩], [⟨"r", .named "u32"⟩]⟩
      ⟨[.named "u32", .named "u32"], [[.invoke "even" [0] [1], .leave]]⟩]

theorem ringDescription_recovered :
    ∃ program, ringDescription.build = .ok program ∧
      program.describe? =
        some { ringDescription with
          types := structsOf ringDescription.types ++ othersOf ringDescription.types } ∧
      program.findCallee? "odd" = some 1 := by
  have succeeds : ringDescription.build.isOk = true := by decide +kernel
  cases success : ringDescription.build with
  | error cause =>
      rw [success] at succeeds
      cases succeeds
  | ok program =>
      obtain ⟨recovered, found⟩ := describe?_build ringDescription program success
      exact ⟨program, rfl, recovered, found 1 _ rfl⟩

end Description

end CBackend
