import CBackend.Proofs.Execution.Simulation
import CBackend.Proofs.Lowering.Legibility

/-!
# Lowering preserves meaning

A definition begins with its registers and temporaries and with copies of its
parameters.  After these it stands where its body starts, and from there it
follows the body.  So the two cannot be told apart from outside, whatever the
operators, the comparisons and the functions called from outside mean.

This holds of the definition that is read from the generated text, provided
that all types are in sight there.  Otherwise the text has no meaning.
-/

namespace CBackend.Execution

open Lowering

variable {program : Program} {function : BodiedFunction}

/-- Distinct names are looked up by position. -/
theorem forall₂_lookup {names : List String} {values : List Value}
    (distinct : names.Nodup) (length : names.length = values.length) :
    List.Forall₂ (fun name value => name ∈ names ∧
      (names.zip values).lookup name = some value) names values := by
  induction names generalizing values with
  | nil =>
      rw [List.length_nil, eq_comm, List.length_eq_zero_iff] at length
      rw [length]
      exact .nil
  | cons name names induction =>
      cases values with
      | nil => cases length
      | cons value values =>
          obtain ⟨absent, distinct⟩ := List.nodup_cons.mp distinct
          refine .cons ⟨List.mem_cons_self, List.lookup_cons_self⟩ ?_
          apply (induction distinct (Nat.succ.inj length)).imp
          intro other found foundLater
          obtain ⟨member, lookup⟩ := foundLater
          have different : other ≠ name := by
            intro same
            rw [same] at member
            exact absent member
          refine ⟨List.mem_cons_of_mem _ member, ?_⟩
          rw [List.zip_cons_cons, List.lookup_cons, beq_false_of_ne different]
          exact lookup

theorem mem_of_lookup {names : List String} {values : List Value} {name : String}
    {value : Value} (found : (names.zip values).lookup name = some value) :
    name ∈ names := by
  by_contra absent
  have missing : (names.zip values).lookup name = none := by
    rw [List.lookup_eq_none_iff]
    intro entry member
    have inside := (List.of_mem_zip member).1
    have different : name ≠ entry.1 := by
      intro same
      rw [← same] at inside
      exact absent inside
    exact bne_iff_ne.mpr different
  rw [missing] at found
  cases found

/-- The outermost block of a definition before its first item. -/
def openingScope (names : List String) (args : List Value) (items : List C.Item) :
    Scope Value :=
  ⟨C.spelledItems items, C.spelledItems items, fun name => (names.zip args).lookup name,
    0, 0⟩

theorem startDefinition_eq {source : C.Spelled.Source} {head : C.Declaration}
    {type : FunctionType} {name : String} {args : List Value}
    (sees : source.seesTypes = true)
    (headed : program.types.declareFunction (program.definitionType type)
      (.name name) = .ok head)
    (argCount : args.length = type.params.length) (items : List C.Item)
    (world : World) :
    startDefinition source (C.Definition.spelled ⟨head, items⟩) args world =
      .running [openingScope ((program.definitionType type).params.map Field.name)
        args items] (.start world) := by
  obtain ⟨distinct, count, _⟩ := definitionType_names program type
  have names : (C.Definition.spelled ⟨head, items⟩).paramNames =
      (program.definitionType type).params.map Field.name :=
    TypeStore.declareFunction_parameters headed
  rw [startDefinition, names, if_pos]
  · rfl
  · refine ⟨sees, distinct, ?_⟩
    rw [List.length_map, count, argCount]

/-- The parameters can be read in the outermost block, and are no registers
or temporaries. -/
theorem reads_params {type : FunctionType} {args : List Value}
    (argCount : args.length = type.params.length) (items : List C.Item)
    (registered : BodiedFunction) (usage : Usage) :
    List.Forall₂ (fun source value =>
      Scopes.read [openingScope ((program.definitionType type).params.map Field.name)
        args items] source.text = some value ∧
      source.text ∉ (definitionOf registered).registerNames ++
        temporaryNames usage.results ∧
      ∀ number, source.text ≠ ((definitionOf registered).slot number).text)
      ((program.definitionType type).params.map fun param =>
        C.Variable.param param.name) args := by
  obtain ⟨distinct, count, usable⟩ := definitionType_names program type
  have length : ((program.definitionType type).params.map Field.name).length =
      args.length := by
    rw [List.length_map, count, argCount]
  have lookups := forall₂_lookup distinct length
  rw [List.forall₂_map_left_iff] at lookups ⊢
  apply lookups.imp
  intro param value found
  obtain ⟨member, lookup⟩ := found
  exact ⟨Scopes.read_here lookup, param_not_mem_locals (usable _ member) _ _,
    (param_not_local (usable _ member)).1⟩

theorem spelledLikeLocal_of_mem {usage : Usage} {name : String}
    (sound : usage.Sound program)
    (member : name ∈ (definitionOf function).registerNames ++
      temporaryNames usage.results) : program.SpelledLikeLocal name := by
  rcases List.mem_append.mp member with register | temporary
  · obtain ⟨number, _, same⟩ := List.mem_map.mp register
    exact .inl ⟨_, number, same.symm⟩
  · obtain ⟨entry, kept, same⟩ := List.mem_map.mp temporary
    obtain ⟨callee, found, named⟩ :=
      sound.named entry.1 (List.mem_map.mpr ⟨entry, kept, rfl⟩)
    refine .inr ⟨callee, found, ?_⟩
    rw [named]
    exact same.symm

/-- A definition gets to its code with a layer of its own, and all temporaries
are declared there.  Parameters are bound before anything is declared, so no
declaration may meet a name that is bound. -/
theorem reaches_definition (setting : Setting Value World) {usage first : Usage}
    {registers temporaries code ending : List C.Item} {args : List Value}
    (valid : (definitionOf function).validate program.types = .ok ())
    (sound : usage.Sound program)
    (emitted : Emits program (List.range program.callees.length)
      (definitionOf function) first function.body.lines code usage)
    (ends : EndsWith (definitionOf function) ending)
    (declared : (definitionOf function).declarations program.types = .ok registers)
    (stored : Lowering.temporaries program.types usage.results = .ok temporaries)
    (argCount : args.length = function.type.params.length) (world : World) :
    let params := (program.definitionType function.type).params
    ∃ entered, Layer program function usage.keptResults .function
        (.enter setting function args [] 0) ending entered ∧
      (∀ callee ∈ usage.keptResults,
        entered.Binds (C.Variable.result callee).text) ∧
      (Scopes.step setting).Reaches
        (.running [openingScope (params.map Field.name) args
          (registers ++ temporaries ++ (definitionOf function).inputs
            (params.map fun param => .param param.name) ++ (code ++ ending))]
          (.start world))
        (.running [entered.standing (code ++ ending)] (.start world)) := by
  intro params
  have enough := Activation.validate_success valid
  have fits : args.length ≤ function.body.registers.length := by
    rw [argCount]
    exact Nat.le_trans (Nat.le_add_right _ _) enough
  obtain ⟨_, _, usable⟩ := definitionType_names program function.type
  have declares := (declarations_names declared).append (temporaries_names stored)
  rw [List.append_assoc (registers ++ temporaries)]
  let items := registers ++ temporaries ++ ((definitionOf function).inputs
    (params.map fun param => .param param.name) ++ (code ++ ending))
  have fresh : ∀ name ∈ (definitionOf function).registerNames ++
      temporaryNames usage.results,
      (openingScope (params.map Field.name) args items).bindings name = none := by
    intro name isLocal
    by_contra bound
    obtain ⟨value, found⟩ := Option.ne_none_iff_exists'.mp bound
    exact param_not_mem_locals (usable _ (mem_of_lookup found)) _ _ isLocal
  obtain ⟨entered, holds, sameItems, binds, reached⟩ :=
    Scopes.reaches_entered setting rfl declares (locals_nodup sound _) fresh rfl
      fits (reads_params argCount items function usage) [] (code ++ ending)
      (.start world)
  refine ⟨entered, ⟨.root, enough, holds, ?_, ends.diverts, ?_⟩, ?_, reached⟩
  · intro name bound
    rcases (binds name).mp (Option.ne_none_iff_exists'.mp bound) with
      named | ⟨value, found⟩
    · exact .inr (spelledLikeLocal_of_mem sound named)
    · exact .inl (usable _ (mem_of_lookup found))
  · let copies := (definitionOf function).inputs
      (params.map fun param => C.Variable.param param.name)
    refine ⟨_, first, usage, registers ++ temporaries ++ copies, code, ?_,
      opening_label? declares _ _, Nat.zero_le _, List.Subset.refl _, emitted⟩
    rw [sameItems, List.append_assoc (registers ++ temporaries)]
    rfl
  · intro callee member
    obtain ⟨entry, kept, rfl⟩ := List.mem_map.mp member
    apply (binds _).mpr
    left
    exact List.mem_append_right _ (List.mem_map.mpr ⟨entry, kept, rfl⟩)

/-- A function's body and its definition start out related, once the
definition has declared its variables and copied its parameters. -/
theorem definition_starts {before after : List NativeFunction}
    {definition : C.Definition} {source : C.Spelled.Source}
    (defines : Defines program function before definition after)
    (sees : source.seesTypes = true) (setting : Setting Value World) {args : List Value}
    (argCount : args.length = function.type.params.length) (world : World) :
    ∃ stored time, Matches (Related program function stored)
      (startBody setting function args world)
      ((Scopes.step setting).run time
        (startDefinition source definition.spelled args world)) := by
  cases defines with
  | @mk usage head registers temporaries code ending fewResults valid emitted ends
      headed declared stored =>
      have sound : usage.Sound program := emitted.sound ⟨by simp [Usage.keptResults],
        by simp [Usage.keptResults]⟩
      obtain ⟨entered, layer, stores, time, reaches⟩ := reaches_definition setting valid
        sound emitted ends declared stored argCount world
      have start := Position.start setting layer.diverts (Nat.zero_le _)
        (List.Subset.refl _) emitted args [] 0
      refine ⟨usage.keptResults, time, ?_⟩
      rw [startDefinition_eq sees headed argCount, reaches]
      exact .running (.mk (.definition layer ends stores) start)

/-- Where a type is hidden nothing runs. -/
theorem definitionRun_not_safe {source : C.Spelled.Source} (hides : source.seesTypes ≠ true)
    (definition : C.Spelled.Definition) (setting : Setting Value World)
    (args : List Value) (world : World) :
    ¬ (definitionRun setting source definition args world).Safe := by
  intro safe
  apply safe 0 (.start world)
  have hidden : ¬ (source.seesTypes ∧ definition.paramNames.Nodup ∧
      definition.paramNames.length = args.length) := fun started => hides started.1
  exact if_neg hidden

/-- From the text of a generated source a definition is read for every
compiled function, under its name.  It behaves like the body of the function,
for all arguments and in every setting, exactly if all types in the text are
in sight. -/
theorem text_preserves_behaviour_iff {source : C.Source}
    (generated : program.source = .ok source) (fits : program.namesFit = true)
    (distinct : ∀ symbol ∈ program.globals, ¬ program.SpelledLikeLocal symbol)
    {index : Nat} (compiled : program.compiled[index]? = some function)
    (targets : ∀ inner, program.Expands function inner → inner.body.TargetsExist) :
    ∃ read definition, C.Spelled.Source.ofText? source.text = some read ∧
      read.definitions[index]? = some definition ∧
      definition.head.declarator.declared = function.name ∧
      ∀ {Value World : Type} (setting : Setting Value World) (args : List Value)
        (world : World), args.length = function.type.params.length →
        (SameBehaviour (bodyRun program setting function args world)
          (definitionRun setting read definition args world) ↔
            read.seesTypes = true) := by
  obtain ⟨definition, earlier, later, found, defines⟩ :=
    Program.source_definition generated compiled
  refine ⟨source.spelled, definition.spelled, Program.ofText?_source generated fits, ?_,
    defines.declared_eq, ?_⟩
  · rw [C.Source.spelled, List.getElem?_map, found]
    rfl
  · intro Value World setting args world argCount
    constructor
    · intro same
      by_contra hides
      exact definitionRun_not_safe hides definition.spelled setting args world
        same.rightSafe
    · intro sees
      obtain ⟨stored, starts⟩ := definition_starts defines sees setting argCount world
      exact (definition_simulates distinct targets).sameBehaviour
        (Scopes.step_callsGrow setting) starts

theorem loopProgram_expands {inner : BodiedFunction}
    (expands : loopProgram.Expands looping inner) :
    inner = looping ∨ inner = doubling ∨ inner = quadrupling := by
  cases expands with
  | root => exact .inl rfl
  | inlined _ _ found =>
      have member := List.mem_of_getElem? found
      right
      simpa [loopProgram] using member

theorem loopProgram_distinct :
    ∀ symbol ∈ loopProgram.globals, ¬ loopProgram.SpelledLikeLocal symbol := by
  have noRegister : ∀ symbol ∈ loopProgram.globals,
      symbol.toList.head? ∉ [some 'r', some 'i'] := by decide +kernel
  have noTemporary : ∀ symbol ∈ loopProgram.globals,
      ∀ callee ∈ loopProgram.callees,
        symbol ≠ (C.Variable.result callee.name).text := by decide +kernel
  intro symbol member spelled
  rcases spelled with ⟨owner, number, same⟩ | ⟨callee, found, same⟩
  · apply noRegister symbol member
    rw [same]
    exact C.Variable.register_text_head owner number
  · exact noTemporary symbol member callee found same

/-- A function that doubles its parameter, which is named like a type. -/
def shadowing : BodiedFunction :=
  ⟨"f", ⟨[⟨"int32_t", 0⟩], [⟨"y", 0⟩]⟩, ⟨[0, 0], [[.compute .plus 1 0 0, .leave]]⟩⟩

def shadowProgram : Program where
  name := "shadow"
  types := ⟨.eight, [.basic ⟨0o23⟩]⟩
  callees := [.compiled shadowing]

theorem shadowProgram_source : shadowProgram.source = .ok ⟨[],
    [⟨⟨.named "int32_t", .function (.name "f") [⟨.named "int32_t", .name "int32_t"⟩]⟩,
      [.declare ⟨.named "int32_t", .name "r0"⟩, .declare ⟨.named "int32_t", .name "r1"⟩,
       .statement (.move (.register .function 0) (.param "int32_t")),
       .label (.block .function 0),
       .statement (.compute (.register .function 1) (.register .function 0) .plus
         (.register .function 0)),
       .statement (.leave (some (.register .function 1)))]⟩]⟩ := by
  with_unfolding_all rfl

theorem shadowProgram_expands {inner : BodiedFunction}
    (expands : shadowProgram.Expands shadowing inner) : inner = shadowing := by
  cases expands with
  | root => rfl
  | inlined _ _ found =>
      have member := List.mem_of_getElem? found
      simp [shadowProgram] at member

theorem shadowProgram_distinct :
    ∀ symbol ∈ shadowProgram.globals, ¬ shadowProgram.SpelledLikeLocal symbol := by
  intro symbol member spelled
  cases List.mem_singleton.mp member
  rcases spelled with ⟨owner, number, same⟩ | ⟨callee, found, same⟩
  · have head := C.Variable.register_text_head owner number
    rw [← same] at head
    revert head
    decide
  · cases List.mem_singleton.mp found
    revert same
    decide

/-- The behaviour of a loop with nested expansions is preserved.  The
definition of a function whose parameter is named like its type has none. -/
theorem loopProgram_preserved_shadowProgram_not :
    (∃ source read definition, loopProgram.source = .ok source ∧
      C.Spelled.Source.ofText? source.text = some read ∧
      read.definitions[0]? = some definition ∧
      ∀ (setting : Setting UInt32 (List UInt32)) (n : UInt32) (world : List UInt32),
        SameBehaviour (bodyRun loopProgram setting looping [n] world)
          (definitionRun setting read definition [n] world)) ∧
    ∃ source read definition, shadowProgram.source = .ok source ∧
      C.Spelled.Source.ofText? source.text = some read ∧
      read.definitions[0]? = some definition ∧
      ∀ (setting : Setting UInt32 Unit) (n : UInt32),
        ¬ SameBehaviour (bodyRun shadowProgram setting shadowing [n] ())
          (definitionRun setting read definition [n] ()) := by
  constructor
  · have sees : loopProgram.source.toOption.any (·.spelled.seesTypes) = true := by
      decide +kernel
    cases generated : loopProgram.source with
    | error cause =>
        rw [generated] at sees
        cases sees
    | ok source =>
        rw [generated] at sees
        have fits : loopProgram.namesFit = true := by decide +kernel
        obtain ⟨read, definition, isRead, found, _, preserved⟩ :=
          text_preserves_behaviour_iff generated fits loopProgram_distinct
            (show loopProgram.compiled[0]? = some looping from rfl)
            (by
              intro inner expands
              rcases loopProgram_expands expands with rfl | rfl | rfl <;> decide)
        cases isRead.symm.trans (Program.ofText?_source generated fits)
        exact ⟨source, _, definition, rfl, isRead, found,
          fun setting n world => (preserved setting [n] world rfl).mpr sees⟩
  · have fits : shadowProgram.namesFit = true := by decide +kernel
    obtain ⟨read, definition, isRead, found, _, preserved⟩ :=
      text_preserves_behaviour_iff shadowProgram_source fits shadowProgram_distinct
        (show shadowProgram.compiled[0]? = some shadowing from rfl)
        (by
          intro inner expands
          rw [shadowProgram_expands expands]
          decide)
    refine ⟨_, _, definition, shadowProgram_source, isRead, found, ?_⟩
    intro setting n same
    have sees := (preserved setting [n] () rfl).mp same
    cases isRead.symm.trans (Program.ofText?_source shadowProgram_source fits)
    revert sees
    decide +kernel

end CBackend.Execution
