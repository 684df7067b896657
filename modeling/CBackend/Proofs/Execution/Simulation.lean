import CBackend.Proofs.Execution.Correspondence

/-!
# Definitions follow bodies

Every step of a body is followed by one or more steps of its definition.
Most steps are followed by a single one.  Entering an expansion also declares
its registers and copies the arguments, and leaving one copies the results
and closes its block.
-/

namespace CBackend.Execution

open Lowering

section Steps

variable {program : Program} {root : BodiedFunction} {stored : List String}
  {setting : Setting Value World} {effects : Effects Value World}
  {owner : C.Owner} {ending rest : List C.Item} {frame : Frame Value}
  {callers : List (Frame Value)} {scope : Scope Value} {outer : Scopes Value}

/-- A step of the frames succeeds, and the blocks follow it. -/
def Follows (program : Program) (root : BodiedFunction) (stored : List String)
    (setting : Setting Value World)
    (attempt : Option (State (Frames Value) Value World)) (scopes : Scopes Value)
    (effects : Effects Value World) : Prop :=
  ∃ state reached, attempt = some state ∧
    Matches (Related program root stored) state reached ∧
    (Scopes.step setting).Reaches (Scopes.step setting scopes effects) reached

theorem Holds.write_declared {activation : Activation}
    (holds : Holds activation frame scope) {number : RegisterNumber}
    (declared : number < activation.body.registers.length) (value : Value) :
    frame.write number value =
      some { frame with registers := frame.registers.set number value } := by
  rw [Frame.write, if_pos]
  rw [holds.size]
  exact declared

theorem follows_compute
    (stacked : Stacked program root stored owner ending frame callers scope outer)
    (position : Position program stored owner frame ending rest)
    {operator : Operator} {target left right : RegisterNumber}
    (declared : (activationOf frame.function owner).Declares [target, left, right]) :
    Follows program root stored setting
      (Frames.run program setting ⟨frame, callers⟩ effects
        (.compute operator target left right))
      (scope.standing (.statement (.compute
        ((activationOf frame.function owner).slot target)
        ((activationOf frame.function owner).slot left) operator
        ((activationOf frame.function owner).slot right)) :: rest) :: outer)
      effects := by
  have holds := stacked.layer.holds
  have targetDeclared := declared target (by simp)
  obtain ⟨first, readsFirst, boundFirst⟩ :=
    holds.read_declared (declared left (by simp))
  obtain ⟨second, readsSecond, boundSecond⟩ :=
    holds.read_declared (declared right (by simp))
  obtain ⟨old, _, bound⟩ := holds.read_declared targetDeclared
  let value := setting.compute operator first second
  have written := holds.write_declared targetDeclared value
  refine ⟨.running _ effects, .running _ effects, ?_,
    .running (.mk (stacked.write_register target value)
      ⟨position.inside, position.diverts, position.emitted⟩), ?_⟩
  · simp only [Frames.run, readsFirst, readsSecond, Option.bind_eq_bind,
      Option.bind_some]
    rw [written]
    rfl
  · rw [Scopes.step_statement]
    · exact .refl _
    · exact Scopes.run_compute effects (Scopes.read_here boundFirst)
        (Scopes.read_here boundSecond) (Scopes.write_standing bound value rest)

theorem goto_block
    (stacked : Stacked program root stored owner ending frame callers scope outer)
    {target : Nat} (present : target < frame.function.body.blocks.length)
    (rest : List C.Item) :
    ∃ found,
      Scopes.goto ((activationOf frame.function owner).label target).text
        (scope.standing rest :: outer) = some (scope.standing found :: outer) ∧
      frame.jump target = some { frame with
        code := [], later := frame.function.body.blocks.drop target } ∧
      Position program stored owner { frame with
        code := [], later := frame.function.body.blocks.drop target }
        ending found := by
  obtain ⟨dormant, before, after, header, code, laid, unlabelled, rank, kept,
    emitted⟩ := stacked.layer.laid
  obtain ⟨between, items, found, extended, remaining⟩ :=
    fromLabel_block emitted present ending
  have remains : frame.function.body.blocks.drop target ≠ [] := by
    simpa using present
  refine ⟨items ++ ending, ?_, ?_, ?_⟩
  · apply Scopes.goto_here
    rw [laid, fromLabel_skip]
    · exact found
    · intro item member labelled
      rw [unlabelled item member] at labelled
      cases labelled
  · cases dropped : frame.function.body.blocks.drop target with
    | nil => exact (remains dropped).elim
    | cons block later => simp only [Frame.jump, dropped]
  · constructor
    · intro instruction member
      rw [List.nil_append] at member
      obtain ⟨block, blockMember, inBlock⟩ := List.mem_flatten.mp member
      exact List.mem_flatten.mpr ⟨block, List.mem_of_mem_drop blockMember, inBlock⟩
    · intro endless
      have last := stacked.layer.diverts endless
      rw [List.getLast?_cons_of_ne_nil remains, List.getLast?_drop, if_neg]
      · exact last
      · omega
    · exact ⟨dormant, between, after, target, items, rfl,
        Nat.le_trans rank extended.expansions, kept, remaining⟩

theorem follows_jump
    (stacked : Stacked program root stored owner ending frame callers scope outer)
    {target : BlockNumber} (present : target < frame.function.body.blocks.length) :
    Follows program root stored setting
      (Frames.run program setting ⟨frame, callers⟩ effects (.jump target))
      (scope.standing (.statement (.goto
        ((activationOf frame.function owner).label target)) :: rest) :: outer)
      effects := by
  obtain ⟨found, goes, jumps, position⟩ := goto_block stacked present rest
  refine ⟨.running _ effects, .running _ effects, ?_,
    .running (.mk (stacked.moved _ _) position), ?_⟩
  · simp only [Frames.run, jumps]
    rfl
  · rw [Scopes.step_statement scope outer effects rest
      (Scopes.run_goto effects goes)]
    exact .refl _

theorem follows_branch
    (stacked : Stacked program root stored owner ending frame callers scope outer)
    (position : Position program stored owner frame ending rest)
    {target : BlockNumber} (present : target < frame.function.body.blocks.length)
    {test : Comparison} {left right : RegisterNumber}
    (declared : (activationOf frame.function owner).Declares [left, right]) :
    Follows program root stored setting
      (Frames.run program setting ⟨frame, callers⟩ effects
        (.branch target test left right))
      (scope.standing (.statement (.branch
        ((activationOf frame.function owner).slot left) test
        ((activationOf frame.function owner).slot right)
        ((activationOf frame.function owner).label target)) :: rest) :: outer)
      effects := by
  have holds := stacked.layer.holds
  obtain ⟨first, readsFirst, boundFirst⟩ :=
    holds.read_declared (declared left (by simp))
  obtain ⟨second, readsSecond, boundSecond⟩ :=
    holds.read_declared (declared right (by simp))
  obtain ⟨found, goes, jumps, target⟩ := goto_block stacked present rest
  by_cases taken : setting.holds test first second = true
  · refine ⟨.running _ effects, .running _ effects, ?_,
      .running (.mk (stacked.moved _ _) target), ?_⟩
    · simp [Frames.run, readsFirst, readsSecond, taken, jumps]
    · rw [Scopes.step_statement scope outer effects rest (Scopes.run_branch effects
        (Scopes.read_here boundFirst) (Scopes.read_here boundSecond) goes),
        if_pos taken]
      exact .refl _
  · refine ⟨.running _ effects, .running _ effects, ?_,
      .running (.mk stacked position), ?_⟩
    · simp [Frames.run, readsFirst, readsSecond, taken]
    · rw [Scopes.step_statement scope outer effects rest (Scopes.run_branch effects
        (Scopes.read_here boundFirst) (Scopes.read_here boundSecond) goes),
        if_neg taken]
      exact .refl _

theorem Holds.readAll_declared {activation : Activation}
    (holds : Holds activation frame scope) {numbers : List RegisterNumber}
    (declared : activation.Declares numbers) :
    ∃ values, frame.readAll numbers = some values ∧
      List.Forall₂ (fun number value =>
        scope.bindings (activation.slot number).text = some value)
        numbers values := by
  induction numbers with
  | nil => exact ⟨[], rfl, .nil⟩
  | cons number numbers induction =>
      obtain ⟨value, reads, bound⟩ :=
        holds.read_declared (declared number List.mem_cons_self)
      obtain ⟨values, readsLater, boundLater⟩ := induction fun other member =>
        declared other (List.mem_cons_of_mem _ member)
      refine ⟨value :: values, ?_, .cons bound boundLater⟩
      rw [Frame.readAll] at readsLater ⊢
      simp [reads, readsLater]

/-- The results of a frame are in the variables after the parameters. -/
theorem Layer.values_declared
    (layer : Layer program root stored owner frame ending scope) :
    ∃ values, frame.values = some values ∧
      List.Forall₂ (fun number value => scope.bindings
        ((activationOf frame.function owner).slot number).text = some value)
        (List.range' frame.function.type.params.length
          frame.function.type.results.length) values := by
  apply layer.holds.readAll_declared
  intro number member
  have bounds := List.mem_range'_1.mp member
  exact Nat.lt_of_lt_of_le bounds.2 layer.enough

theorem finish_returns
    (layer : Layer program root stored .function frame ending scope)
    {item : C.Item} (finished : (definitionOf frame.function).finish = .ok item) :
    ∃ values, frame.values = some values ∧
      Scopes.step setting (scope.standing (item :: rest) :: outer) effects =
        .returned values effects := by
  obtain ⟨values, read, bound⟩ := layer.values_declared
  refine ⟨values, read, ?_⟩
  have results : (definitionOf frame.function).type.results =
    frame.function.type.results := rfl
  unfold Activation.finish at finished
  split at finished
  · rename_i none
    rw [← results, none] at bound
    cases bound
    cases finished
    exact Scopes.step_statement scope outer effects rest rfl
  · rename_i single one
    rw [← results, one] at bound
    obtain ⟨result, found, same⟩ := Success.bind_iff.mp finished
    cases same
    obtain ⟨_, rfl⟩ := Activation.register_success_iff.mp found
    cases bound with
    | cons first none =>
        cases none
        exact Scopes.step_statement scope outer effects rest
          (Scopes.run_leaveWith effects (Scopes.read_here first))
  · cases finished

/-- Copies out of a block into the registers of the frame around it. -/
theorem reaches_delivered (inner : Activation) (first : Nat) (rest waiting : List C.Item)
    {numbers : List RegisterNumber} {values : List Value} {caller : Frame Value}
    {next : Scope Value}
    (outside : Stacked program root stored owner ending caller callers next outer)
    (receives : (activationOf caller.function owner).Declares numbers)
    (absent : ∀ register, scope.bindings
      ((activationOf caller.function owner).slot register).text = none)
    (bound : List.Forall₂ (fun number value =>
        scope.bindings (inner.slot number).text = some value)
      (List.range' (inner.firstResult + first) numbers.length) values) :
    ∃ registers newNext,
      caller.writeAll numbers values = some { caller with registers } ∧
      Stacked program root stored owner ending { caller with registers } callers
        newNext outer ∧
      (Scopes.step setting).Reaches
        (.running (scope.standing
          (((numbers.map (activationOf caller.function owner).slot).zipIdx first).map
            (fun entry => .statement (.move entry.1
              (inner.slot (inner.firstResult + entry.2)))) ++ rest) ::
          next.standing waiting :: outer) effects)
        (.running (scope.standing rest :: newNext.standing waiting :: outer)
          effects) := by
  induction numbers generalizing caller next first values with
  | nil =>
      cases bound
      exact ⟨caller.registers, next, rfl, outside, .refl _⟩
  | cons number numbers induction =>
      rw [List.length_cons, List.range'_succ] at bound
      obtain ⟨value, values, boundHere, boundLater, rfl⟩ :=
        List.forall₂_cons_left_iff.mp bound
      rw [Nat.add_assoc] at boundLater
      have declared := receives number List.mem_cons_self
      obtain ⟨old, _, present⟩ := outside.layer.holds.read_declared declared
      obtain ⟨registers, newNext, written, stacked, reached⟩ :=
        induction (first + 1) (outside.write_register number value)
          (fun other member => receives other (List.mem_cons_of_mem _ member))
          absent boundLater
      refine ⟨registers, newNext, ?_, stacked, ?_⟩
      · rw [Frame.writeAll, outside.layer.holds.write_declared declared value]
        exact written
      · apply Step.Reaches.head
        have delivers : ∀ more : List C.Item, Scopes.step setting
            (scope.standing (.statement (.move
              ((activationOf caller.function owner).slot number)
              (inner.slot (inner.firstResult + first))) :: more) ::
              next.standing waiting :: outer) effects =
            .running (scope.standing more :: (next.assign
              ((activationOf caller.function owner).slot number).text value).standing
                waiting :: outer) effects := by
          intro more
          have absentHere : (scope.standing more).bindings
              ((activationOf caller.function owner).slot number).text = none :=
            absent number
          apply Scopes.step_statement
          exact Scopes.run_move effects (Scopes.read_here boundHere)
            (Scopes.write_outside absentHere
              (Scopes.write_standing present value waiting))
        rw [List.map_cons, List.zipIdx_cons, List.map_cons, List.cons_append, delivers]
        exact reached

/-- An expansion is left at its end. -/
theorem follows_finishing {number : Nat}
    (stacked : Stacked program root stored (.expansion number) ending frame callers
      scope outer) :
    Follows program root stored setting (Frames.leave ⟨frame, callers⟩ effects)
      (scope.standing ending :: outer) effects := by
  cases stacked with
  | @expansion owner outerEnding caller _ callers next _ outer _ waiting outside waits
      fresh receives resultCount layer =>
      obtain ⟨values, read, bound⟩ := layer.values_declared
      have absent := layer.outside_absent fresh caller.function
      rw [← resultCount] at bound
      obtain ⟨registers, newNext, written, stackedCaller, reached⟩ :=
        reaches_delivered (expansionOf frame.function number) 0 [] waiting outside
          receives absent bound
      have waitsThere : Position program stored owner { caller with registers }
          outerEnding waiting := ⟨waits.inside, waits.diverts, waits.emitted⟩
      refine ⟨.running _ effects, .running _ effects, ?_,
        .running (.mk stackedCaller waitsThere), ?_⟩
      · simp [Frames.leave, read, written]
      · rw [finishing, Scopes.step_emptyLabel]
        rw [List.append_nil] at reached
        refine reached.trans (.head ?_)
        rw [Scopes.step_end]
        exact .refl _

/-- Control that gets to the end of a body leaves it. -/
theorem follows_end
    (stacked : Stacked program root stored owner ending frame callers scope outer)
    (present : ending ≠ []) :
    Follows program root stored setting (Frames.leave ⟨frame, callers⟩ effects)
      (scope.standing ending :: outer) effects := by
  cases stacked with
  | definition layer ends _ =>
      unfold EndsWith at ends
      split at ends
      · exact (present ends).elim
      · obtain ⟨item, finished, rfl⟩ := ends
        obtain ⟨values, read, returns⟩ := finish_returns layer finished
        refine ⟨.returned values effects, _, ?_, .returned, ?_⟩
        · simp [Frames.leave, read]
        · rw [returns]
          exact .refl _
  | expansion outside waits fresh receives resultCount layer =>
      exact follows_finishing
        (.expansion outside waits fresh receives resultCount layer)

theorem goto_finish {number : Nat}
    (stacked : Stacked program root stored (.expansion number) ending frame callers
      scope outer) (rest : List C.Item) :
    Scopes.goto (C.Label.finish number).text (scope.standing rest :: outer) =
      some (scope.standing ending :: outer) := by
  obtain ⟨_, _, _, header, code, laid, unlabelled, _, _, emitted⟩ :=
    stacked.layer.laid
  apply Scopes.goto_here
  rw [laid, fromLabel_skip]
  · cases stacked
    exact fromLabel_finish emitted number _
  · intro item member labelled
    rw [unlabelled item member] at labelled
    cases labelled

theorem follows_leave
    (stacked : Stacked program root stored owner ending frame callers scope outer)
    {item : C.Item} (left : (activationOf frame.function owner).leave = .ok item) :
    Follows program root stored setting (Frames.leave ⟨frame, callers⟩ effects)
      (scope.standing (item :: rest) :: outer) effects := by
  cases owner with
  | function =>
      obtain ⟨values, read, returns⟩ := finish_returns stacked.layer left
      cases stacked
      refine ⟨.returned values effects, _, ?_, .returned, ?_⟩
      · simp [Frames.leave, read]
      · rw [returns]
        exact .refl _
  | expansion number =>
      cases left
      obtain ⟨state, reached, succeeds, matched, reaches⟩ :=
        follows_finishing stacked
      refine ⟨state, reached, succeeds, matched, ?_⟩
      rw [Scopes.step_statement scope outer effects rest
        (Scopes.run_goto effects (goto_finish stacked rest))]
      exact .head reaches

theorem read_args {activation : Activation} {numbers : List RegisterNumber}
    {values : List Value}
    (bound : List.Forall₂ (fun number value =>
      scope.bindings (activation.slot number).text = some value) numbers values) :
    ((numbers.map activation.slot).map C.Variable.text).mapM
      (Scopes.read (scope :: outer)) = some values := by
  induction bound with
  | nil => rfl
  | cons here _ induction =>
      rw [List.map_cons, List.map_cons, List.mapM_cons, Scopes.read_here here, induction]
      rfl

theorem invoke_called {callee : Callee} {number : CalleeNumber}
    {args results : List RegisterNumber} {symbol : String} {values : List Value}
    (found : program.callees[number]? = some callee)
    (named : callee.symbol? = some symbol)
    (argCount : args.length = callee.type.params.length)
    (resultCount : results.length = callee.type.results.length)
    (read : frame.readAll args = some values) :
    Frames.invoke program setting ⟨frame, callers⟩ effects number args results =
      Frames.call setting ⟨frame, callers⟩ effects symbol callee.type values
        results := by
  cases callee with
  | native function =>
      cases named
      simp only [Frames.invoke, found, Option.bind_eq_bind, Option.bind_some,
        if_pos (And.intro argCount resultCount), read]
      rfl
  | compiled function =>
      cases named
      simp only [Frames.invoke, found, Option.bind_eq_bind, Option.bind_some,
        if_pos (And.intro argCount resultCount), read]
      rfl
  | inlined function => cases named

theorem follows_call
    (stacked : Stacked program root stored owner ending frame callers scope outer)
    (position : Position program stored owner frame ending rest)
    {args : List RegisterNumber} {symbol : String} {type : FunctionType}
    {values : List Value} (none : type.results = [])
    (visible : Scopes.read (scope :: outer) symbol = .none)
    (bound : List.Forall₂ (fun number value => scope.bindings
      ((activationOf frame.function owner).slot number).text = some value)
      args values) :
    Follows program root stored setting
      (Frames.call setting ⟨frame, callers⟩ effects symbol type values [])
      (scope.standing (.statement (.call .none symbol
        (args.map (activationOf frame.function owner).slot)) :: rest) :: outer)
      effects := by
  let called := (effects.calling setting symbol values).2
  refine ⟨.running _ called, .running _ called, ?_,
    .running (.mk stacked position), ?_⟩
  · simp [Frames.call, none, Frame.writeAll, called]
  · rw [Scopes.step_statement scope outer effects rest
      (Scopes.run_call effects (read_args bound) visible)]
    exact .refl _

/-- The result of a call reaches its register through the temporary of the
callee. -/
theorem follows_callInto
    (stacked : Stacked program root stored owner ending frame callers scope outer)
    (position : Position program stored owner frame ending rest)
    {args : List RegisterNumber} {target : RegisterNumber} {symbol callee : String}
    {type : FunctionType} {result : Field} {values : List Value}
    (one : type.results = [result]) (member : callee ∈ stored)
    (declared : target < (activationOf frame.function owner).body.registers.length)
    (visible : Scopes.read (scope :: outer) symbol = none)
    (bound : List.Forall₂ (fun number value => scope.bindings
      ((activationOf frame.function owner).slot number).text = some value)
      args values) :
    Follows program root stored setting
      (Frames.call setting ⟨frame, callers⟩ effects symbol type values [target])
      (scope.standing (.statement (.call (some (.result callee)) symbol
        (args.map (activationOf frame.function owner).slot)) ::
        .statement (.move ((activationOf frame.function owner).slot target)
          (.result callee)) :: rest) :: outer) effects := by
  let called := (effects.calling setting symbol values).2
  let value := (effects.calling setting symbol values).1
  let move : C.Item := .statement (.move
    ((activationOf frame.function owner).slot target) (.result callee))
  obtain ⟨newScope, newOuter, writes, newStacked, reads⟩ :=
    stacked.write_temporary member value (move :: rest)
  have newHolds := newStacked.layer.holds
  obtain ⟨old, _, targetBound⟩ := newHolds.read_declared declared
  refine ⟨.running _ called, .running _ called, ?_,
    .running (.mk (newStacked.write_register target value)
      ⟨position.inside, position.diverts, position.emitted⟩), ?_⟩
  · have written : frame.writeAll [target] [value] =
        some { frame with registers := frame.registers.set target value } := by
      rw [Frame.writeAll, newHolds.write_declared declared value]
      rfl
    simp [Frames.call, one, written, value, called]
  · rw [Scopes.step_statement scope outer effects (move :: rest)
      (Scopes.run_callInto effects (read_args bound) visible writes)]
    apply Step.Reaches.head
    rw [Scopes.step_statement newScope newOuter called rest
      (Scopes.run_move called reads (Scopes.write_standing targetBound value rest))]
    exact .refl _

theorem follows_called
    (stacked : Stacked program root stored owner ending frame callers scope outer)
    (position : Position program stored owner frame ending rest)
    {callee : Callee} {number : CalleeNumber} {args results : List RegisterNumber}
    {symbol : String} {before after : Usage} {items : List C.Item}
    (found : program.callees[number]? = some callee)
    (named : callee.symbol? = some symbol)
    (argCount : args.length = callee.type.params.length)
    (resultCount : results.length = callee.type.results.length)
    (argsDeclared : (activationOf frame.function owner).Declares args)
    (resultsDeclared : (activationOf frame.function owner).Declares results)
    (calls : call symbol callee.name callee.type
      (args.map (activationOf frame.function owner).slot)
      (results.map (activationOf frame.function owner).slot) before =
        .ok (items, after))
    (kept : after.keptResults ⊆ stored)
    (distinct : ¬ program.SpelledLikeLocal symbol) :
    Follows program root stored setting
      (Frames.run program setting ⟨frame, callers⟩ effects
        (.invoke number args results))
      (scope.standing (items ++ rest) :: outer) effects := by
  have global : symbol ∈ program.globals :=
    List.mem_filterMap.mpr ⟨callee, List.mem_of_getElem? found, named⟩
  have visible := stacked.read_symbol global distinct
  obtain ⟨values, read, bound⟩ := stacked.layer.holds.readAll_declared argsDeclared
  rw [Frames.run, invoke_called found named argCount resultCount read]
  rcases call_success calls with ⟨none, rfl, _⟩ | ⟨result, one, rfl, rfl⟩
  · rw [none, List.length_nil, List.length_eq_zero_iff] at resultCount
    rw [resultCount]
    exact follows_call stacked position none visible bound
  · rw [one, List.length_singleton, List.length_eq_one_iff] at resultCount
    obtain ⟨target, rfl⟩ := resultCount
    have member := kept (Usage.mem_keptResults_keeping before callee.name result.type)
    exact follows_callInto stacked position one member
      (resultsDeclared target List.mem_cons_self) visible bound

/-- No label stands among declarations and copies of arguments. -/
theorem opening_label? {items : List C.Item} {names : List String}
    (declares : DeclaresNames items names) (activation : Activation)
    (sources : List C.Variable) :
    ∀ item ∈ items ++ activation.inputs sources, item.label? = none := by
  intro item member
  obtain ⟨declarations, rfl, _⟩ := declares
  rcases List.mem_append.mp member with declaration | copy
  · obtain ⟨_, _, rfl⟩ := List.mem_map.mp declaration
    rfl
  · obtain ⟨_, _, rfl⟩ := List.mem_map.mp copy
    rfl

/-- A new frame stands at the start of its code. -/
theorem Position.start (setting : Setting Value World) {function : BodiedFunction}
    {dormant : List CalleeNumber} {before after : Usage} {code : List C.Item}
    (diverts : ending = [] →
      function.body.blocks.getLast?.any Block.divertsControl = true)
    (rank : owner.rank ≤ before.expansions) (kept : after.keptResults ⊆ stored)
    (emitted : Emits program dormant (activationOf function owner) before
      function.body.lines code after)
    (args : List Value) (results : List RegisterNumber) (number : Nat) :
    Position program stored owner (.enter setting function args results number)
      ending (code ++ ending) where
  inside := fun _ member => member
  diverts := by
    intro endless
    have last := diverts endless
    have present : function.body.blocks ≠ [] := by
      intro none
      rw [none] at last
      cases last
    rw [Frame.enter, List.getLast?_cons_of_ne_nil present]
    exact last
  emitted := ⟨dormant, before, after, 0, code, rfl, rank, kept, emitted⟩

theorem invoke_inlined {function : BodiedFunction} {number : CalleeNumber}
    {args results : List RegisterNumber} {values : List Value}
    (found : program.callees[number]? = some (.inlined function))
    (argCount : args.length = function.type.params.length)
    (resultCount : results.length = function.type.results.length)
    (read : frame.readAll args = some values) :
    Frames.run program setting ⟨frame, callers⟩ effects (.invoke number args results) =
      some (.running
        ⟨.enter setting function values results effects.created, frame :: callers⟩
        effects.creating) := by
  simp only [Frames.run, Frames.invoke, found, Option.bind_eq_bind,
    Option.bind_some, read]
  rw [if_pos ⟨argCount, resultCount⟩]
  rfl

/-- From inside an expansion the registers around it can still be read, under
names that it does not declare. -/
theorem reads_outside {function : BodiedFunction} {number : Nat}
    {args : List RegisterNumber} {values : List Value}
    (different : owner ≠ .expansion number)
    (bound : List.Forall₂ (fun register value => scope.bindings
      ((activationOf frame.function owner).slot register).text = some value) args values)
    (items : List C.Spelled.Item) (created : Nat) (rest : List C.Item)
    (outer : Scopes Value) :
    List.Forall₂ (fun source value =>
      Scopes.read (.enter items created :: scope.standing rest :: outer)
        source.text = some value ∧
      source.text ∉ (expansionOf function number).registerNames ∧
      ∀ register, source.text ≠ ((expansionOf function number).slot register).text)
      (args.map (activationOf frame.function owner).slot) values := by
  rw [List.forall₂_map_left_iff]
  apply bound.imp
  intro register value boundHere
  refine ⟨?_, slot_text_not_mem_registerNames different _ _ _, ?_⟩
  · rw [Scopes.read_outside rfl]
    exact Scopes.read_here boundHere
  intro other same
  exact different (C.Variable.register_text_injective same).1

section Expansion

variable {function : BodiedFunction} {dormant : List CalleeNumber}
  {before after : Usage} {registers code : List C.Item}
  {args results : List RegisterNumber} {values : List Value}

/-- The block of an expansion gets to its code with a layer of its own.
Expansions are numbered in the order in which they begin, so none is around
itself. -/
theorem reaches_expansion (setting : Setting Value World)
    (argCount : args.length = function.type.params.length)
    (valid : (expansionOf function before.expansions).validate program.types = .ok ())
    (declared : (expansionOf function before.expansions).declarations
      program.types = .ok registers)
    (inside : Emits program dormant (expansionOf function before.expansions)
      before.expanding function.body.lines code after)
    (rank : owner.rank ≤ before.expansions) (kept : after.keptResults ⊆ stored)
    (expands : program.Expands root function)
    (bound : List.Forall₂ (fun register value => scope.bindings
      ((activationOf frame.function owner).slot register).text = some value) args values)
    (results : List RegisterNumber) (rest : List C.Item) (outer : Scopes Value)
    (created : Nat) (effects : Effects Value World) (targets : List C.Variable) :
    ∃ entered, Layer program root stored (.expansion before.expansions)
        (.enter setting function values results created)
        (finishing function before.expansions targets) entered ∧
      (Scopes.step setting).Reaches
        (.running (.enter (C.spelledItems (expansionItems
          (expansionOf function before.expansions) before.expansions registers code
          (args.map (activationOf frame.function owner).slot) targets)) created ::
          scope.standing rest :: outer) effects)
        (.running (entered.standing
          (code ++ finishing function before.expansions targets) ::
          scope.standing rest :: outer) effects) := by
  let inner := expansionOf function before.expansions
  let sources := args.map (activationOf frame.function owner).slot
  have different : owner ≠ .expansion before.expansions := by
    intro same
    rw [same, C.Owner.rank] at rank
    omega
  have declares := declarations_names declared
  have enough := Activation.validate_success valid
  have fits : values.length ≤ function.body.registers.length := by
    rw [← bound.length_eq, argCount]
    exact Nat.le_trans (Nat.le_add_right _ _) enough
  rw [expansionItems_eq]
  let items := C.spelledItems (registers ++ (inner.inputs sources ++
    (code ++ finishing function before.expansions targets)))
  obtain ⟨entered, holds, sameItems, binds, reached⟩ :=
    Scopes.reaches_entered setting (List.append_nil _).symm declares
      (registerNames_nodup inner) (fun _ _ => rfl) rfl fits
      (reads_outside different bound items created rest outer) results
      (code ++ finishing function before.expansions targets) effects
  refine ⟨entered, ⟨expands, enough, holds, ?_, ?_, ?_⟩, reached⟩
  · intro name isBound
    rcases (binds name).mp (Option.ne_none_iff_exists'.mp isBound) with
      named | ⟨_, impossible⟩
    · obtain ⟨register, _, same⟩ := List.mem_map.mp named
      exact ⟨register, same.symm⟩
    · cases impossible
  · intro impossible
    cases impossible
  · refine ⟨dormant, before.expanding, after, registers ++ inner.inputs sources,
      code, ?_, opening_label? declares inner sources, Nat.le_refl _, kept, inside⟩
    rw [sameItems, List.append_assoc]
    rfl

theorem follows_inlined
    (stacked : Stacked program root stored owner ending frame callers scope outer)
    (position : Position program stored owner frame ending rest)
    {number : CalleeNumber}
    (found : program.callees[number]? = some (.inlined function))
    (argCount : args.length = function.type.params.length)
    (resultCount : results.length = function.type.results.length)
    (argsDeclared : (activationOf frame.function owner).Declares args)
    (resultsDeclared : (activationOf frame.function owner).Declares results)
    (valid : (expansionOf function before.expansions).validate program.types = .ok ())
    (declared : (expansionOf function before.expansions).declarations
      program.types = .ok registers)
    (inside : Emits program dormant (expansionOf function before.expansions)
      before.expanding function.body.lines code after)
    (rank : owner.rank ≤ before.expansions) (kept : after.keptResults ⊆ stored)
    (expands : program.Expands root function) :
    Follows program root stored setting
      (Frames.run program setting ⟨frame, callers⟩ effects
        (.invoke number args results))
      (scope.standing (.block (expansionItems
        (expansionOf function before.expansions) before.expansions registers code
        (args.map (activationOf frame.function owner).slot)
        (results.map (activationOf frame.function owner).slot)) :: rest) :: outer)
      effects := by
  obtain ⟨values, read, bound⟩ := stacked.layer.holds.readAll_declared argsDeclared
  obtain ⟨entered, layer, reached⟩ := reaches_expansion setting argCount valid declared
    inside rank kept expands bound results rest outer effects.created effects.creating
    (results.map (activationOf frame.function owner).slot)
  have start := Position.start setting layer.diverts (Nat.le_refl _) kept inside
    values results effects.created
  refine ⟨_, _, invoke_inlined found argCount resultCount read,
    .running (.mk (.expansion stacked position rank resultsDeclared resultCount layer)
      start), ?_⟩
  rw [Scopes.step_block]
  exact reached

end Expansion

theorem diverts_later {instruction : Instruction} {code : Block}
    {later : List Block} (continues : instruction.divertsControl = false)
    (diverts : ((instruction :: code) :: later).getLast?.any
      Block.divertsControl = true) :
    (code :: later).getLast?.any Block.divertsControl = true := by
  cases later with
  | cons block later =>
      rw [List.getLast?_cons_cons] at diverts ⊢
      exact diverts
  | nil =>
      cases code with
      | nil =>
          simp [Block.divertsControl, continues] at diverts
      | cons next code =>
          simp only [List.getLast?_singleton, Option.any_some, Block.divertsControl,
            List.getLast?_cons_cons] at diverts ⊢
          exact diverts

/-- Where a frame stands after an instruction that goes on. -/
theorem Position.next {instruction : Instruction} {code : Block}
    (position : Position program stored owner
      { frame with code := instruction :: code } ending rest)
    (continues : instruction.divertsControl = false)
    {dormant : List CalleeNumber} {before after : Usage} {first : BlockNumber}
    {items : List C.Item} (rank : owner.rank ≤ before.expansions)
    (kept : after.keptResults ⊆ stored)
    (emitted : Emits program dormant (activationOf frame.function owner) before
      (code.map .run ++ linesFrom first frame.later) items after) :
    Position program stored owner { frame with code } ending (items ++ ending) where
  inside := fun _ member => position.inside _ (List.mem_cons_of_mem _ member)
  diverts := fun endless => diverts_later continues (position.diverts endless)
  emitted := ⟨dormant, before, after, first, items, rfl, rank, kept, emitted⟩

theorem follows_instruction
    (distinct : ∀ symbol ∈ program.globals, ¬ program.SpelledLikeLocal symbol)
    (targets : ∀ function, program.Expands root function →
      function.body.TargetsExist)
    {instruction : Instruction} {code : Block}
    (stacked : Stacked program root stored owner ending { frame with code } callers
      scope outer)
    (position : Position program stored owner
      { frame with code := instruction :: code } ending rest) :
    Follows program root stored setting
      (Frames.run program setting ⟨{ frame with code }, callers⟩ effects instruction)
      (scope.standing rest :: outer) effects := by
  have expands := stacked.layer.expands
  have member := position.inside instruction List.mem_cons_self
  obtain ⟨dormant, before, after, first, items, rfl, rank, kept, emitted⟩ :=
    position.emitted
  cases emitted with
  | plain here later =>
      have extended := later.extends
      have rankLater := Nat.le_trans rank here.extends.expansions
      rw [List.append_assoc]
      cases here with
      | compute declared =>
          exact follows_compute stacked (position.next rfl rankLater kept later)
            declared
      | branch declared =>
          exact follows_branch stacked (position.next rfl rankLater kept later)
            (targets _ expands _ member _ rfl) declared
      | jump => exact follows_jump stacked (targets _ expands _ member _ rfl)
      | leave left => exact follows_leave stacked left
      | called found named argCount resultCount argsDeclared resultsDeclared links
          calls =>
          have global : _ ∈ program.globals :=
            List.mem_filterMap.mpr ⟨_, List.mem_of_getElem? found, named⟩
          exact follows_called stacked (position.next rfl rankLater kept later) found
            named argCount resultCount argsDeclared resultsDeclared calls
            (List.Subset.trans extended.keptResults_subset kept)
            (distinct _ global)
  | expanded found argCount resultCount argsDeclared resultsDeclared allowed valid
      declared inside later =>
      have extended := later.extends
      have rankLater := Nat.le_trans rank
        ((Usage.extends_expanding _).trans inside.extends).expansions
      exact follows_inlined stacked (position.next rfl rankLater kept later) found
        argCount resultCount argsDeclared resultsDeclared valid declared inside rank
        (List.Subset.trans extended.keptResults_subset kept)
        (.inlined expands member found)

/-- Control falls through to the next block. -/
theorem follows_block {block : Block} {later : List Block}
    (stacked : Stacked program root stored owner ending
      { frame with code := [], later := block :: later } callers scope outer)
    (position : Position program stored owner
      { frame with code := [], later := block :: later } ending rest) :
    Follows program root stored setting
      (some (.running ⟨{ frame with code := block, later }, callers⟩ effects))
      (scope.standing rest :: outer) effects := by
  obtain ⟨dormant, before, after, first, items, rfl, rank, kept, emitted⟩ :=
    position.emitted
  cases emitted with
  | @start _ _ _ _ _ _ items remaining =>
      have next : Position program stored owner
          { frame with code := block, later } ending (items ++ ending) := by
        refine ⟨?_, ?_, _, before, after, first + 1, items, rfl, rank, kept,
          remaining⟩
        · intro instruction member
          apply position.inside
          rw [List.nil_append, List.flatten_cons]
          exact member
        · intro endless
          have diverts := position.diverts endless
          rw [List.getLast?_cons_cons] at diverts
          exact diverts
      refine ⟨_, .running _ effects, rfl,
        .running (.mk (stacked.moved block later) next), ?_⟩
      rw [List.cons_append, Scopes.step_label]
      exact .refl _

/-- Every step of a body is followed by its definition. -/
theorem definition_simulates
    (distinct : ∀ symbol ∈ program.globals, ¬ program.SpelledLikeLocal symbol)
    (targets : ∀ function, program.Expands root function →
      function.body.TargetsExist) :
    Simulates (Frames.step program setting) (Scopes.step setting)
      (Related program root stored) := by
  intro frames scopes effects related
  have attempted : ∀ {attempt}, Follows program root stored setting attempt scopes
      effects → ∃ reached, Matches (Related program root stored)
        (attempt.getD (.stuck effects)) reached ∧
        (Scopes.step setting).Reaches (Scopes.step setting scopes effects)
          reached := by
    intro attempt follows
    obtain ⟨state, reached, rfl, matched, reaches⟩ := follows
    exact ⟨reached, matched, reaches⟩
  cases related with
  | @mk owner ending frame callers scope outer rest stacked position =>
      obtain ⟨function, code, later, registers, results⟩ := frame
      cases code with
      | cons instruction code =>
          exact attempted (follows_instruction distinct targets
            (stacked.moved code later) position)
      | nil =>
          cases later with
          | cons block later => exact attempted (follows_block stacked position)
          | nil =>
              obtain ⟨_, _, _, _, _, rfl, _, _, emitted⟩ := position.emitted
              cases emitted
              apply attempted
              apply follows_end stacked
              intro endless
              have diverts := position.diverts endless
              simp [Block.divertsControl] at diverts

end Steps

end CBackend.Execution
