import CBackend.Proofs.Success

/-!
# What lowering emits

Lowering is a recursion over instructions, blocks and expansions that carries
what is in use.  `Emits` describes its results without the recursion: a body
is read line by line, a line being the start of a block or an instruction,
and every line contributes its items.  An inlined invocation contributes one
nested block, which is again described by `Emits`.

The relation is the only view of lowering that later proofs need.
-/

namespace CBackend

/-- A line of a body. -/
inductive Line where
  | start (number : BlockNumber)
  | run (instruction : Instruction)

/-- The lines of blocks numbered from `first` on. -/
def linesFrom (first : BlockNumber) : List Block → List Line
  | [] => []
  | block :: later => .start first :: (block.map .run ++ linesFrom (first + 1) later)

/-- The lines of a body, from which blocks fall through in order. -/
def Body.lines (body : Body) : List Line := linesFrom 0 body.blocks

namespace Lowering

namespace Activation

/-- The variable of a register. -/
def slot (activation : Activation) (number : RegisterNumber) : C.Variable :=
  .register activation.owner number

/-- All given registers are declared. -/
def Declares (activation : Activation) (numbers : List RegisterNumber) : Prop :=
  ∀ number ∈ numbers, number < activation.body.registers.length

theorem register_success_iff {activation : Activation} {number : RegisterNumber}
    {found : C.Variable} :
    activation.register number = .ok found ↔
      number < activation.body.registers.length ∧
        found = activation.slot number := by
  unfold register
  split
  · rename_i declared
    constructor
    · intro success
      cases success
      exact ⟨declared, rfl⟩
    · rintro ⟨_, rfl⟩
      rfl
  · rename_i missing
    constructor
    · intro success
      cases success
    · rintro ⟨declared, _⟩
      exact (missing declared).elim

theorem registers_success_iff {activation : Activation}
    {numbers : List RegisterNumber} {found : List C.Variable} :
    activation.registers numbers = .ok found ↔
      activation.Declares numbers ∧ found = numbers.map activation.slot := by
  rw [registers, Success.mapM_iff]
  induction numbers generalizing found with
  | nil =>
      rw [List.forall₂_nil_left_iff]
      simp [Declares]
  | cons number numbers induction =>
      rw [List.forall₂_cons_left_iff]
      constructor
      · rintro ⟨first, others, firstSuccess, othersSuccess, rfl⟩
        obtain ⟨declared, rfl⟩ := register_success_iff.mp firstSuccess
        obtain ⟨othersDeclared, rfl⟩ := induction.mp othersSuccess
        refine ⟨?_, rfl⟩
        intro other member
        rcases List.mem_cons.mp member with rfl | later
        · exact declared
        · exact othersDeclared other later
      · rintro ⟨declared, rfl⟩
        refine ⟨_, _, ?_, ?_, rfl⟩
        · exact register_success_iff.mpr
            ⟨declared number List.mem_cons_self, rfl⟩
        · refine induction.mpr ⟨?_, rfl⟩
          intro other member
          exact declared other (List.mem_cons_of_mem _ member)

theorem validate_success {types : TypeStore} {activation : Activation}
    (success : activation.validate types = .ok ()) :
    activation.type.params.length + activation.type.results.length ≤
      activation.body.registers.length := by
  by_contra few
  have fewer := Nat.lt_of_not_le few
  simp only [validate, if_pos fewer] at success
  cases success

/-- Copies of variables into the first registers, when these are declared. -/
def inputs (activation : Activation) (sources : List C.Variable) : List C.Item :=
  sources.zipIdx.map fun (source, number) =>
    .statement (.move (activation.slot number) source)

/-- Copies of the result registers, when these are declared. -/
def outputs (activation : Activation) (targets : List C.Variable) : List C.Item :=
  targets.zipIdx.map fun (target, index) =>
    .statement (.move target (activation.slot (activation.firstResult + index)))

theorem copiesIn_success {activation : Activation} {sources : List C.Variable}
    {items : List C.Item} (success : copiesIn activation sources = .ok items) :
    items = activation.inputs sources := by
  refine Success.mapM_eq_map ?_ success
  rintro ⟨source, number⟩ item copied
  obtain ⟨target, targetFound, same⟩ := Success.bind_iff.mp copied
  cases same
  obtain ⟨_, rfl⟩ := register_success_iff.mp targetFound
  rfl

theorem copiesOut_success {activation : Activation} {targets : List C.Variable}
    {items : List C.Item} (success : copiesOut activation targets = .ok items) :
    items = activation.outputs targets := by
  refine Success.mapM_eq_map ?_ success
  rintro ⟨target, index⟩ item copied
  obtain ⟨source, sourceFound, same⟩ := Success.bind_iff.mp copied
  cases same
  obtain ⟨_, rfl⟩ := register_success_iff.mp sourceFound
  rfl

end Activation

/-- The link symbol of a called native is recorded; a compiled function
needs no record. -/
inductive Links (types : TypeStore) : Callee → Usage → Usage → Prop where
  | native {function : NativeFunction} {before after : Usage}
      (linked : link types function before = .ok ((), after)) :
      Links types (.native function) before after
  | compiled {function : BodiedFunction} {usage : Usage} :
      Links types (.compiled function) usage usage

/-- What is emitted for an instruction that expands nothing. -/
inductive EmitsPlain (program : Program) (activation : Activation) :
    Usage → Instruction → List C.Item → Usage → Prop where
  | compute {usage : Usage} {operator : Operator}
      {target left right : RegisterNumber}
      (declared : activation.Declares [target, left, right]) :
      EmitsPlain program activation usage (.compute operator target left right)
        [.statement (.compute (activation.slot target) (activation.slot left)
          operator (activation.slot right))] usage
  | branch {usage : Usage} {target : BlockNumber} {test : Comparison}
      {left right : RegisterNumber}
      (declared : activation.Declares [left, right]) :
      EmitsPlain program activation usage (.branch target test left right)
        [.statement (.branch (activation.slot left) test (activation.slot right)
          (activation.label target))] usage
  | jump {usage : Usage} {target : BlockNumber} :
      EmitsPlain program activation usage (.jump target)
        [.statement (.goto (activation.label target))] usage
  | leave {usage : Usage} {item : C.Item}
      (left : activation.leave = .ok item) :
      EmitsPlain program activation usage .leave [item] usage
  | called {before linked after : Usage} {number : CalleeNumber}
      {args results : List RegisterNumber} {callee : Callee} {symbol : String}
      {items : List C.Item}
      (found : program.callees[number]? = some callee)
      (named : callee.symbol? = some symbol)
      (argCount : args.length = callee.type.params.length)
      (resultCount : results.length = callee.type.results.length)
      (argsDeclared : activation.Declares args)
      (resultsDeclared : activation.Declares results)
      (links : Links program.types callee before linked)
      (calls : call symbol callee.name callee.type (args.map activation.slot)
        (results.map activation.slot) linked = .ok (items, after)) :
      EmitsPlain program activation before (.invoke number args results) items after

/-- The activation of a function under an owner. -/
def activationOf (function : BodiedFunction) (owner : C.Owner) : Activation :=
  ⟨function.name, function.type, function.body, owner⟩

/-- The activation of an inline function in a numbered expansion. -/
abbrev expansionOf (function : BodiedFunction) (number : Nat) : Activation :=
  activationOf function (.expansion number)

/-- The block that an inlined invocation becomes. -/
def expansionItems (inner : Activation) (number : Nat)
    (registers code : List C.Item) (sources targets : List C.Variable) :
    List C.Item :=
  registers ++ inner.inputs sources ++ code ++
    [.emptyLabel (.finish number)] ++ inner.outputs targets

/-- What follows the code of an expansion. -/
def finishing (function : BodiedFunction) (number : Nat)
    (targets : List C.Variable) : List C.Item :=
  .emptyLabel (.finish number) :: (expansionOf function number).outputs targets

theorem expansionItems_eq (function : BodiedFunction) (number : Nat)
    (registers code : List C.Item) (sources targets : List C.Variable) :
    expansionItems (expansionOf function number) number registers code sources
      targets =
      registers ++ ((expansionOf function number).inputs sources ++
        (code ++ finishing function number targets)) := by
  simp [expansionItems, finishing]

/-- One more expansion has been numbered. -/
def Usage.expanding (usage : Usage) : Usage :=
  { usage with expansions := usage.expansions + 1 }

/-- What is emitted for lines of a body.  `dormant` are the callees that are
not being expanded around it. -/
inductive Emits (program : Program) :
    List CalleeNumber → Activation → Usage → List Line → List C.Item →
      Usage → Prop where
  | nil {dormant : List CalleeNumber} {activation : Activation} {usage : Usage} :
      Emits program dormant activation usage [] [] usage
  | start {dormant : List CalleeNumber} {activation : Activation}
      {before after : Usage} {number : BlockNumber} {lines : List Line}
      {items : List C.Item}
      (later : Emits program dormant activation before lines items after) :
      Emits program dormant activation before (.start number :: lines)
        (.label (activation.label number) :: items) after
  | plain {dormant : List CalleeNumber} {activation : Activation}
      {before between after : Usage} {instruction : Instruction}
      {lines : List Line} {here items : List C.Item}
      (emitted : EmitsPlain program activation before instruction here between)
      (later : Emits program dormant activation between lines items after) :
      Emits program dormant activation before (.run instruction :: lines)
        (here ++ items) after
  | expanded {dormant : List CalleeNumber} {activation : Activation}
      {before between after : Usage} {number : CalleeNumber}
      {args results : List RegisterNumber} {function : BodiedFunction}
      {registers code : List C.Item} {lines : List Line} {items : List C.Item}
      (found : program.callees[number]? = some (.inlined function))
      (argCount : args.length = function.type.params.length)
      (resultCount : results.length = function.type.results.length)
      (argsDeclared : activation.Declares args)
      (resultsDeclared : activation.Declares results)
      (allowed : number ∈ dormant)
      (valid : (expansionOf function before.expansions).validate program.types =
        .ok ())
      (declared : (expansionOf function before.expansions).declarations
        program.types = .ok registers)
      (inside : Emits program (dormant.erase number)
        (expansionOf function before.expansions) before.expanding
        function.body.lines code between)
      (later : Emits program dormant activation between lines items after) :
      Emits program dormant activation before
        (.run (.invoke number args results) :: lines)
        (.block (expansionItems (expansionOf function before.expansions)
          before.expansions registers code (args.map activation.slot)
          (results.map activation.slot)) :: items) after

/-- What an inlined invocation emits, given the variables it copies from and
to. -/
def EmitsExpansion (program : Program) (dormant : List CalleeNumber)
    (number : CalleeNumber) (function : BodiedFunction)
    (sources targets : List C.Variable) (before : Usage) (items : List C.Item)
    (after : Usage) : Prop :=
  number ∈ dormant ∧ ∃ registers code,
    (expansionOf function before.expansions).validate program.types = .ok () ∧
    (expansionOf function before.expansions).declarations program.types =
      .ok registers ∧
    Emits program (dormant.erase number)
      (expansionOf function before.expansions) before.expanding
      function.body.lines code after ∧
    items = [.block (expansionItems (expansionOf function before.expansions)
      before.expansions registers code sources targets)]

/-- Every successful expansion is one that `Emits` describes. -/
def Expander.Describes (expander : Expander) (program : Program)
    (dormant : List CalleeNumber) : Prop :=
  ∀ number function sources targets before items after,
    expander number function sources targets before = .ok (items, after) →
      EmitsExpansion program dormant number function sources targets before
        items after

section Describing

variable {program : Program} {dormant : List CalleeNumber} {expander : Expander}
  {activation : Activation}

private theorem invoke_emits
    (described : expander.Describes program dormant)
    {number : CalleeNumber} {args results : List RegisterNumber}
    {before between after : Usage} {here items : List C.Item}
    {lines : List Line}
    (success : invoke program expander activation number args results before =
      .ok (here, between))
    (later : Emits program dormant activation between lines items after) :
    Emits program dormant activation before
      (.run (.invoke number args results) :: lines) (here ++ items) after := by
  unfold invoke at success
  cases found : program.callees[number]? with
  | none =>
      rw [found] at success
      exact (throw_not_success success).elim
  | some callee =>
      simp only [found] at success
      split at success
      · obtain ⟨_, _, thrown, _⟩ := bind_success_iff.mp success
        exact (throw_not_success thrown).elim
      · rename_i sameArity
        simp only [ne_eq, Arity.mk.injEq, not_not] at sameArity
        obtain ⟨sameArgs, sameResults⟩ := sameArity
        obtain ⟨sources, sourcesFound, success⟩ := lift_success_iff.mp success
        obtain ⟨argsDeclared, rfl⟩ :=
          Activation.registers_success_iff.mp sourcesFound
        obtain ⟨targets, targetsFound, success⟩ := lift_success_iff.mp success
        obtain ⟨resultsDeclared, rfl⟩ :=
          Activation.registers_success_iff.mp targetsFound
        cases callee with
        | native function =>
            obtain ⟨_, linked, linkSuccess, calls⟩ := bind_success_iff.mp success
            exact .plain (.called found rfl sameArgs.symm sameResults.symm
              argsDeclared resultsDeclared (.native linkSuccess) calls) later
        | compiled function =>
            exact .plain (.called found rfl sameArgs.symm sameResults.symm
              argsDeclared resultsDeclared .compiled success) later
        | inlined function =>
            obtain ⟨allowed, registers, code, valid, declared, inside, rfl⟩ :=
              described _ _ _ _ _ _ _ success
            exact .expanded found sameArgs.symm sameResults.symm argsDeclared
              resultsDeclared allowed valid declared inside later

private theorem instruction_emits
    (described : expander.Describes program dormant)
    {instruction : Instruction} {before between after : Usage}
    {here items : List C.Item} {lines : List Line}
    (success : Lowering.instruction program expander activation instruction
      before = .ok (here, between))
    (later : Emits program dormant activation between lines items after) :
    Emits program dormant activation before (.run instruction :: lines)
      (here ++ items) after := by
  cases instruction with
  | compute operator target left right =>
      obtain ⟨_, targetFound, success⟩ := lift_success_iff.mp success
      obtain ⟨targetDeclared, rfl⟩ :=
        Activation.register_success_iff.mp targetFound
      obtain ⟨_, leftFound, success⟩ := lift_success_iff.mp success
      obtain ⟨leftDeclared, rfl⟩ := Activation.register_success_iff.mp leftFound
      obtain ⟨_, rightFound, success⟩ := lift_success_iff.mp success
      obtain ⟨rightDeclared, rfl⟩ :=
        Activation.register_success_iff.mp rightFound
      obtain ⟨rfl, rfl⟩ := pure_success_iff.mp success
      refine .plain (.compute ?_) later
      simp [Activation.Declares, targetDeclared, leftDeclared, rightDeclared]
  | branch target test left right =>
      obtain ⟨_, leftFound, success⟩ := lift_success_iff.mp success
      obtain ⟨leftDeclared, rfl⟩ := Activation.register_success_iff.mp leftFound
      obtain ⟨_, rightFound, success⟩ := lift_success_iff.mp success
      obtain ⟨rightDeclared, rfl⟩ :=
        Activation.register_success_iff.mp rightFound
      obtain ⟨rfl, rfl⟩ := pure_success_iff.mp success
      refine .plain (.branch ?_) later
      simp [Activation.Declares, leftDeclared, rightDeclared]
  | jump target =>
      obtain ⟨rfl, rfl⟩ := pure_success_iff.mp success
      exact .plain .jump later
  | invoke number args results => exact invoke_emits described success later
  | leave =>
      simp only [Lowering.instruction] at success
      obtain ⟨item, left, returned⟩ := lift_success_iff.mp success
      obtain ⟨rfl, rfl⟩ := pure_success_iff.mp returned
      exact .plain (.leave left) later

private theorem instructions_emit
    (described : expander.Describes program dormant)
    {block : Block} {before between after : Usage}
    {pieces : List (List C.Item)} {items : List C.Item} {lines : List Line}
    (success : block.mapM (Lowering.instruction program expander activation)
      before = .ok (pieces, between))
    (later : Emits program dormant activation between lines items after) :
    Emits program dormant activation before (block.map .run ++ lines)
      (pieces.flatten ++ items) after := by
  induction block generalizing before pieces with
  | nil =>
      rw [List.mapM_nil] at success
      obtain ⟨rfl, rfl⟩ := pure_success_iff.mp success
      exact later
  | cons instruction block induction =>
      rw [List.mapM_cons] at success
      obtain ⟨here, _, hereSuccess, success⟩ := bind_success_iff.mp success
      obtain ⟨others, _, othersSuccess, success⟩ := bind_success_iff.mp success
      obtain ⟨rfl, rfl⟩ := pure_success_iff.mp success
      have rest := instruction_emits described hereSuccess
        (induction othersSuccess)
      simpa using rest

private theorem numberedBlocks_emit
    (described : expander.Describes program dormant)
    {blocks : List Block} {first : BlockNumber} {before after : Usage}
    {pieces : List (List C.Item)}
    (success : ((blocks.zipIdx first).mapM fun (code, number) =>
      block program expander activation code number : Lower _) before =
        .ok (pieces, after)) :
    Emits program dormant activation before (linesFrom first blocks)
      pieces.flatten after := by
  induction blocks generalizing first before pieces with
  | nil =>
      rw [List.zipIdx_nil, List.mapM_nil] at success
      obtain ⟨rfl, rfl⟩ := pure_success_iff.mp success
      exact .nil
  | cons code blocks induction =>
      rw [List.zipIdx_cons, List.mapM_cons] at success
      obtain ⟨here, _, hereSuccess, success⟩ := bind_success_iff.mp success
      obtain ⟨others, _, othersSuccess, success⟩ := bind_success_iff.mp success
      obtain ⟨rfl, rfl⟩ := pure_success_iff.mp success
      obtain ⟨lowered, _, loweredSuccess, hereSuccess⟩ :=
        bind_success_iff.mp hereSuccess
      obtain ⟨rfl, rfl⟩ := pure_success_iff.mp hereSuccess
      have rest := instructions_emit described loweredSuccess
        (induction othersSuccess)
      exact .start rest

theorem blocks_emit
    (described : expander.Describes program dormant)
    {before after : Usage} {items : List C.Item}
    (success : blocks program expander activation before = .ok (items, after)) :
    Emits program dormant activation before activation.body.lines items
      after := by
  obtain ⟨pieces, _, piecesSuccess, success⟩ := bind_success_iff.mp success
  obtain ⟨rfl, rfl⟩ := pure_success_iff.mp success
  exact numberedBlocks_emit described piecesSuccess

end Describing

/-- The expansions of inline functions are described by `Emits`.  The
induction is on the number of callees that may still be expanded. -/
theorem expand_describes (program : Program) (dormant : List CalleeNumber)
    (chain : List String) : (expand program dormant chain).Describes program dormant := by
  intro number function sources targets before items after success
  rw [expand] at success
  split at success
  · rename_i allowed
    have described := expand_describes program (dormant.erase number)
      (chain ++ [function.name])
    obtain ⟨expansion, between, numbered, success⟩ := bind_success_iff.mp success
    cases numbered
    obtain ⟨_, valid, success⟩ := lift_success_iff.mp success
    obtain ⟨registers, declared, success⟩ := lift_success_iff.mp success
    obtain ⟨inputs, inputsCopied, success⟩ := lift_success_iff.mp success
    obtain ⟨code, _, codeSuccess, success⟩ := bind_success_iff.mp success
    obtain ⟨outputs, outputsCopied, returned⟩ := lift_success_iff.mp success
    obtain ⟨rfl, rfl⟩ := pure_success_iff.mp returned
    refine ⟨allowed, registers, code, valid, declared,
      blocks_emit described codeSuccess, ?_⟩
    rw [Activation.copiesIn_success inputsCopied,
      Activation.copiesOut_success outputsCopied]
    rfl
  · exact (throw_not_success success).elim
termination_by dormant.length
decreasing_by exact length_erase_lt ‹_ ∈ dormant›

/-- The activation of a compiled function in its definition. -/
abbrev definitionOf (function : BodiedFunction) : Activation :=
  activationOf function .function

/-- How a definition ends: with a return, unless control never gets there. -/
def EndsWith (activation : Activation) (ending : List C.Item) : Prop :=
  if activation.body.blocks.getLast?.any Block.divertsControl then ending = []
  else ∃ item, activation.finish = .ok item ∧ ending = [item]

theorem EndsWith.diverts {activation : Activation} {ending : List C.Item}
    (ends : EndsWith activation ending) (endless : ending = []) :
    activation.body.blocks.getLast?.any Block.divertsControl = true := by
  unfold EndsWith at ends
  split at ends
  · assumption
  · obtain ⟨item, _, some⟩ := ends
    rw [endless] at some
    cases some

/-- What is emitted for a compiled function, where the natives in `before`
were called by earlier definitions. -/
inductive Defines (program : Program) (function : BodiedFunction)
    (before : List NativeFunction) :
    C.Definition → List NativeFunction → Prop where
  | mk {usage : Usage} {head : C.Declaration}
      {registers temporaries code ending : List C.Item}
      (fewResults : function.type.results.length ≤ 1)
      (valid : (definitionOf function).validate program.types = .ok ())
      (emitted : Emits program (List.range program.callees.length)
        (definitionOf function) ⟨before, [], 0⟩ function.body.lines code usage)
      (ends : EndsWith (definitionOf function) ending)
      (headed : program.types.declareFunction (program.definitionType function.type)
        (.name function.name) = .ok head)
      (declared : (definitionOf function).declarations program.types = .ok registers)
      (stored : Lowering.temporaries program.types usage.results = .ok temporaries) :
      Defines program function before
        ⟨head, registers ++ temporaries ++ (definitionOf function).inputs
          ((program.definitionType function.type).params.map fun param =>
            .param param.name) ++ (code ++ ending)⟩
        usage.natives

theorem code_emits {program : Program} {activation : Activation}
    {before after : Usage} {items : List C.Item}
    (success : Lowering.code program activation before = .ok (items, after)) :
    ∃ code ending, items = code ++ ending ∧ EndsWith activation ending ∧
      Emits program (List.range program.callees.length) activation before
        activation.body.lines code after := by
  obtain ⟨code, between, codeSuccess, rest⟩ := bind_success_iff.mp success
  have emitted := blocks_emit (expand_describes program _ []) codeSuccess
  split at rest
  · rename_i diverts
    obtain ⟨rfl, rfl⟩ := pure_success_iff.mp rest
    refine ⟨_, [], (List.append_nil _).symm, ?_, emitted⟩
    rw [EndsWith, if_pos diverts]
  · rename_i fallsThrough
    obtain ⟨item, finished, returned⟩ := lift_success_iff.mp rest
    obtain ⟨rfl, rfl⟩ := pure_success_iff.mp returned
    refine ⟨code, [item], rfl, ?_, emitted⟩
    rw [EndsWith, if_neg fallsThrough]
    exact ⟨item, finished, rfl⟩

theorem definition_defines {program : Program} {function : BodiedFunction}
    {before after : List NativeFunction} {definition : C.Definition}
    (success : Lowering.definition program function before = .ok (definition, after)) :
    Defines program function before definition after := by
  unfold Lowering.definition at success
  split at success
  · cases success
  · rename_i fewResults
    obtain ⟨_, valid, success⟩ := Success.bind_iff.mp success
    obtain ⟨⟨lowered, usage⟩, lowers, success⟩ := Success.bind_iff.mp success
    obtain ⟨head, headed, success⟩ := Success.bind_iff.mp success
    obtain ⟨registers, declared, success⟩ := Success.bind_iff.mp success
    obtain ⟨temporaries, stored, success⟩ := Success.bind_iff.mp success
    obtain ⟨inputs, copied, success⟩ := Success.bind_iff.mp success
    cases success
    obtain ⟨code, ending, rfl, ends, emitted⟩ := code_emits lowers
    rw [Activation.copiesIn_success copied]
    exact .mk (Nat.le_of_not_gt fewResults) valid emitted ends headed declared
      stored

/-- Definitions correspond to compiled functions by position. -/
theorem definitions_define {program : Program} {functions : List BodiedFunction}
    {before after : List NativeFunction} {definitions : List C.Definition}
    (success : Lowering.definitions program before functions =
      .ok (definitions, after)) :
    List.Forall₂ (fun function definition => ∃ earlier later,
      Defines program function earlier definition later) functions definitions := by
  induction functions generalizing before definitions with
  | nil =>
      cases success
      exact .nil
  | cons function functions induction =>
      obtain ⟨⟨first, used⟩, firstSuccess, success⟩ := Success.bind_iff.mp success
      obtain ⟨⟨others, all⟩, othersSuccess, success⟩ := Success.bind_iff.mp success
      cases success
      exact .cons ⟨before, used, definition_defines firstSuccess⟩
        (induction othersSuccess)

end Lowering

/-- A generated source defines exactly the compiled functions, in order. -/
theorem Program.source_defines {program : Program} {source : C.Source}
    (success : program.source = .ok source) :
    List.Forall₂ (fun function definition => ∃ earlier later,
      Lowering.Defines program function earlier definition later)
      program.compiled source.definitions := by
  obtain ⟨⟨definitions, natives⟩, defined, success⟩ := Success.bind_iff.mp success
  obtain ⟨linked, _, success⟩ := Success.bind_iff.mp success
  cases success
  exact Lowering.definitions_define defined

/-- The definition of a compiled function stands at its position. -/
theorem Program.source_definition {program : Program} {source : C.Source}
    (success : program.source = .ok source) {index : Nat}
    {function : BodiedFunction}
    (compiled : program.compiled[index]? = some function) :
    ∃ definition earlier later, source.definitions[index]? = some definition ∧
      Lowering.Defines program function earlier definition later := by
  have related := Program.source_defines success
  obtain ⟨inside, rfl⟩ := List.getElem?_eq_some_iff.mp compiled
  have defined : index < source.definitions.length := by
    rw [← related.length_eq]
    exact inside
  obtain ⟨earlier, later, defines⟩ := related.get inside defined
  exact ⟨_, earlier, later, List.getElem?_eq_getElem defined, defines⟩

end CBackend
