import CBackend.Proofs.Lowering.Layout

/-!
# What emitted code mentions

Statement by statement, emitted code mentions what the role of its region
says, and nothing but registers of its activation and temporaries.
-/

namespace CBackend

open C (itemsMentions itemsMentions_append)

/-- The use of a body that a role describes. -/
abbrev Role.activation (role : Role) : Lowering.Activation :=
  Lowering.activationOf role.function role.owner

namespace Lowering

section Roles

variable {program : Program} {role : Role}

theorem itemsMentions_inputs (role : Role) :
    itemsMentions (role.activation.inputs role.sources) = role.entering := by
  simp [itemsMentions, Activation.inputs, List.filterMap_map, Function.comp_def,
    C.Item.statement?, C.Statement.variables, Role.entering, Role.register,
    Activation.slot, activationOf]

theorem itemsMentions_outputs (role : Role) (targets : List C.Variable) :
    itemsMentions (role.activation.outputs targets) =
      targets.zipIdx.map fun (target, index) =>
        [target, role.register (role.function.type.params.length + index)] := by
  simp [itemsMentions, Activation.outputs, List.filterMap_map, Function.comp_def,
    C.Item.statement?, C.Statement.variables, Role.register, Activation.slot,
    Activation.firstResult, activationOf]

theorem finish_leaving (owned : role.owner = .function) {item : C.Item}
    (finished : role.activation.finish = .ok item) :
    itemsMentions [item] = [role.leaving] := by
  rw [Role.leaving, owned]
  unfold Activation.finish at finished
  split at finished
  · rename_i none
    cases finished
    rw [show role.function.type.results = [] from none]
    rfl
  · rename_i single
    obtain ⟨value, found, same⟩ := Success.bind_iff.mp finished
    cases same
    obtain ⟨_, rfl⟩ := Activation.register_success_iff.mp found
    rw [show role.function.type.results = [_] from single]
    rfl
  · cases finished

theorem leave_leaving {item : C.Item} (left : role.activation.leave = .ok item) :
    itemsMentions [item] = [role.leaving] := by
  cases owned : role.owner with
  | function =>
      apply finish_leaving owned
      rw [← left, Activation.leave]
      simp [activationOf, owned]
  | expansion number =>
      rcases Activation.leave_success left with ⟨isFunction, _⟩ | ⟨_, _, rfl⟩
      · cases owned.symm.trans isFunction
      · rw [Role.leaving, owned]
        rfl

theorem call_calling {callee : Callee} {symbol : String} {before after : Usage}
    {args results : List RegisterNumber} {items : List C.Item}
    (calls : call symbol callee.name callee.type (args.map role.activation.slot)
      (results.map role.activation.slot) before = .ok (items, after)) :
    itemsMentions items = role.calling callee args results := by
  rw [Role.calling]
  rcases call_success calls with ⟨none, rfl, _⟩ | ⟨result, single, rfl, _⟩
  · rw [none]
    rfl
  · rw [single]
    simp [itemsMentions, List.filterMap_map, Function.comp_def, C.Item.statement?,
      C.Statement.variables, Role.register, Activation.slot, activationOf]

theorem EmitsPlain.itemsMentions_eq {before after : Usage} {instruction : Instruction}
    {items : List C.Item}
    (emitted : EmitsPlain program role.activation before instruction items after) :
    itemsMentions items = role.running program instruction := by
  cases emitted with
  | compute _ => rfl
  | branch _ => rfl
  | jump => rfl
  | leave left => exact leave_leaving left
  | @called _ _ _ _ _ callee _ _ found named _ _ _ _ _ calls =>
      rw [call_calling calls, Role.running, found]
      cases callee with
      | native function => rfl
      | compiled function => rfl
      | inlined function => cases named

/-- What is emitted for lines mentions what their instructions do. -/
theorem Emits.itemsMentions_eq {dormant : List CalleeNumber} {activation : Activation}
    {before after : Usage} {lines : List Line} {items : List C.Item}
    (emitted : Emits program dormant activation before lines items after)
    (described : activation = role.activation) :
    itemsMentions items =
      (lines.filterMap Line.run?).flatMap (role.running program) := by
  induction emitted with
  | nil => rfl
  | start _ induction => exact induction described
  | @plain _ _ _ _ _ instruction lines _ _ here _ induction =>
      have runs : (Line.run instruction :: lines).filterMap Line.run? =
        instruction :: lines.filterMap Line.run? := rfl
      rw [described] at here
      rw [itemsMentions_append, here.itemsMentions_eq, induction described, runs,
        List.flatMap_cons]
  | @expanded _ _ _ _ _ number args results _ _ _ lines _ found _ _ _ _ _ _ _ _ _ _
      induction =>
      have runs : (Line.run (.invoke number args results) :: lines).filterMap
        Line.run? = .invoke number args results :: lines.filterMap Line.run? := rfl
      have silent : role.running program (.invoke number args results) = [] := by
        simp [Role.running, found]
      rw [runs, List.flatMap_cons, silent]
      exact induction described

end Roles

/-- The variables that the code of an activation may mention: its registers,
and temporaries. -/
def Activation.Mentions (activation : Activation) (stored : List String)
    (mentioned : C.Variable) : Prop :=
  (∃ number < activation.body.registers.length, mentioned = activation.slot number) ∨
    ∃ callee ∈ stored, mentioned = .result callee

section Mentions

variable {program : Program} {activation : Activation} {before after : Usage}
  {items : List C.Item} {statement : C.Statement} {mentioned : C.Variable}

theorem mentions_of_declares {numbers : List RegisterNumber} {stored : List String}
    (declared : activation.Declares numbers)
    (member : mentioned ∈ numbers.map activation.slot) :
    activation.Mentions stored mentioned := by
  obtain ⟨number, inside, rfl⟩ := List.mem_map.mp member
  exact .inl ⟨number, declared number inside, rfl⟩

theorem finish_mentions {stored : List String}
    (finished : activation.finish = .ok (.statement statement))
    (member : mentioned ∈ statement.variables) :
    activation.Mentions stored mentioned := by
  unfold Activation.finish at finished
  split at finished
  · cases finished
    cases member
  · obtain ⟨value, found, same⟩ := Success.bind_iff.mp finished
    cases same
    obtain ⟨declared, rfl⟩ := Activation.register_success_iff.mp found
    exact .inl ⟨_, declared, List.mem_singleton.mp member⟩
  · cases finished

theorem call_mentions {symbol name : String} {type : FunctionType}
    {args results : List RegisterNumber}
    (calls : call symbol name type (args.map activation.slot)
      (results.map activation.slot) before = .ok (items, after))
    (argsDeclared : activation.Declares args)
    (resultsDeclared : activation.Declares results)
    (inside : .statement statement ∈ items)
    (member : mentioned ∈ statement.variables) :
    activation.Mentions after.keptResults mentioned := by
  rcases call_success calls with ⟨_, rfl, _⟩ | ⟨result, _, rfl, rfl⟩
  · cases List.mem_singleton.mp inside
    exact mentions_of_declares argsDeclared member
  · have stored := Usage.mem_keptResults_keeping before name result.type
    rcases List.mem_cons.mp inside with here | later
    · cases here
      rcases List.mem_cons.mp member with target | arg
      · exact .inr ⟨name, stored, target⟩
      · exact mentions_of_declares argsDeclared arg
    · obtain ⟨target, isTarget, same⟩ := List.mem_map.mp later
      cases same
      rcases List.mem_cons.mp member with assigned | source
      · rw [← assigned] at isTarget
        exact mentions_of_declares resultsDeclared isTarget
      · exact .inr ⟨name, stored, List.mem_singleton.mp source⟩

theorem EmitsPlain.mentions {instruction : Instruction}
    (emitted : EmitsPlain program activation before instruction items after)
    (inside : .statement statement ∈ items)
    (member : mentioned ∈ statement.variables) :
    activation.Mentions after.keptResults mentioned := by
  cases emitted with
  | compute declared =>
      cases List.mem_singleton.mp inside
      exact mentions_of_declares declared member
  | branch declared =>
      cases List.mem_singleton.mp inside
      exact mentions_of_declares declared member
  | jump =>
      cases List.mem_singleton.mp inside
      cases member
  | leave left =>
      rw [← List.mem_singleton.mp inside] at left
      unfold Activation.leave at left
      split at left
      · exact finish_mentions left member
      · cases left
        cases member
  | called _ _ _ _ argsDeclared resultsDeclared _ calls =>
      exact call_mentions calls argsDeclared resultsDeclared inside member

theorem Emits.mentions {dormant : List CalleeNumber} {lines : List Line}
    (emitted : Emits program dormant activation before lines items after)
    (inside : .statement statement ∈ items)
    (member : mentioned ∈ statement.variables) :
    activation.Mentions after.keptResults mentioned := by
  induction emitted with
  | nil => cases inside
  | start _ induction =>
      rcases List.mem_cons.mp inside with here | later
      · cases here
      · exact induction later
  | plain here later induction =>
      rcases List.mem_append.mp inside with now | afterwards
      · rcases here.mentions now member with register | temporary
        · exact .inl register
        · obtain ⟨callee, stored, same⟩ := temporary
          exact .inr ⟨callee, later.extends.keptResults_subset stored, same⟩
      · exact induction afterwards
  | expanded _ _ _ _ _ _ _ _ _ _ _ induction =>
      rcases List.mem_cons.mp inside with here | later
      · cases here
      · exact induction later

end Mentions

end Lowering

end CBackend
