import CBackend.Proofs.Lowering.Emission

/-!
# Growth of what is in use

Lowering only ever extends what is in use: natives and stored results are
appended and expansions are counted upwards.  The stored results are those
of callees of the program, each kept once, and the natives are callees of the
program too.
-/

namespace CBackend.Lowering

namespace Usage

/-- Everything in use stays in use. -/
structure Extends (before after : Usage) : Prop where
  natives : before.natives <+: after.natives
  results : before.results <+: after.results
  expansions : before.expansions ≤ after.expansions

namespace Extends

theorem refl (usage : Usage) : Extends usage usage :=
  ⟨List.prefix_rfl, List.prefix_rfl, Nat.le_refl _⟩

theorem trans {first second third : Usage}
    (earlier : Extends first second) (later : Extends second third) :
    Extends first third :=
  ⟨earlier.natives.trans later.natives, earlier.results.trans later.results,
    Nat.le_trans earlier.expansions later.expansions⟩

end Extends

theorem extends_expanding (usage : Usage) : Extends usage usage.expanding :=
  ⟨List.prefix_rfl, List.prefix_rfl, Nat.le_succ _⟩

/-- The callees whose results are stored. -/
def keptResults (usage : Usage) : List String := usage.results.map Prod.fst

theorem Extends.keptResults_subset {before after : Usage}
    (extended : Extends before after) : before.keptResults ⊆ after.keptResults :=
  List.map_subset Prod.fst extended.results.subset

/-- The usage after the result of a callee has been stored. -/
def keeping (usage : Usage) (callee : String) (type : TypeNumber) : Usage :=
  if usage.results.any (·.1 == callee) then usage
  else { usage with results := usage.results ++ [(callee, type)] }

theorem any_iff_mem_keptResults {usage : Usage} {callee : String} :
    usage.results.any (·.1 == callee) = true ↔ callee ∈ usage.keptResults := by
  simp [keptResults, List.any_eq_true]

theorem extends_keeping (usage : Usage) (callee : String) (type : TypeNumber) :
    Extends usage (usage.keeping callee type) := by
  unfold keeping
  split
  · exact .refl usage
  · exact ⟨List.prefix_rfl, List.prefix_append _ _, Nat.le_refl _⟩

theorem mem_keptResults_keeping (usage : Usage) (callee : String)
    (type : TypeNumber) : callee ∈ (usage.keeping callee type).keptResults := by
  unfold keeping
  split
  · rename_i present
    exact any_iff_mem_keptResults.mp present
  · simp [keptResults]

/-- The stored results belong to callees of the program, each once. -/
structure Sound (program : Program) (usage : Usage) : Prop where
  distinct : usage.keptResults.Nodup
  named : ∀ name ∈ usage.keptResults, ∃ callee ∈ program.callees, callee.name = name

theorem Sound.keeping {program : Program} {usage : Usage} {callee : Callee}
    (sound : Sound program usage) (member : callee ∈ program.callees)
    (type : TypeNumber) : Sound program (usage.keeping callee.name type) := by
  unfold Usage.keeping
  split
  · exact sound
  · rename_i absent
    have names : Usage.keptResults
        { usage with results := usage.results ++ [(callee.name, type)] } =
          usage.keptResults ++ [callee.name] := by
      simp [keptResults]
    constructor
    · rw [names, List.nodup_append]
      refine ⟨sound.distinct, by simp, ?_⟩
      intro name old other new same
      rw [List.mem_singleton.mp new] at same
      rw [same] at old
      exact absent (any_iff_mem_keptResults.mpr old)
    · intro name found
      rw [names] at found
      rcases List.mem_append.mp found with old | new
      · exact sound.named name old
      · exact ⟨callee, member, (List.mem_singleton.mp new).symm⟩

end Usage

/-- A call stores nothing, or the single result of the callee. -/
theorem call_success {symbol name : String} {type : FunctionType}
    {args targets : List C.Variable} {before after : Usage} {items : List C.Item}
    (success : call symbol name type args targets before = .ok (items, after)) :
    (type.results = [] ∧ items = [.statement (.call none symbol args)] ∧
      after = before) ∨
    ∃ result, type.results = [result] ∧
      items = .statement (.call (some (.result name)) symbol args) ::
        targets.map (fun target => .statement (.move target (.result name))) ∧
      after = before.keeping name result.type := by
  unfold call at success
  rcases results : type.results with _ | ⟨single, _ | ⟨second, others⟩⟩ <;>
    simp only [results] at success
  · obtain ⟨rfl, rfl⟩ := pure_success_iff.mp success
    exact Or.inl ⟨rfl, rfl, rfl⟩
  · obtain ⟨_, _, kept, returned⟩ := bind_success_iff.mp success
    cases kept
    obtain ⟨rfl, rfl⟩ := pure_success_iff.mp returned
    exact Or.inr ⟨single, rfl, rfl, rfl⟩
  · exact (throw_not_success success).elim

/-- Linking changes only the natives in use, and at most by the new one. -/
theorem link_success {types : TypeStore} {native : NativeFunction}
    {before after : Usage} (success : link types native before = .ok ((), after)) :
    after = before ∨
      after = { before with natives := before.natives ++ [native] } := by
  obtain ⟨_, _, got, success⟩ := bind_success_iff.mp success
  cases got
  cases found : before.natives.find? (·.symbol == native.symbol) with
  | none =>
    simp only [found] at success
    cases success
    exact Or.inr rfl
  | some seen =>
    simp only [found] at success
    obtain ⟨first, _, success⟩ := lift_success_iff.mp success
    obtain ⟨second, _, success⟩ := lift_success_iff.mp success
    split at success
    · exact (throw_not_success success).elim
    · obtain ⟨_, rfl⟩ := pure_success_iff.mp success
      exact Or.inl rfl

theorem Links.unchanged {types : TypeStore} {callee : Callee} {before after : Usage}
    (links : Links types callee before after) :
    after.results = before.results ∧ after.expansions = before.expansions ∧
      before.natives <+: after.natives := by
  cases links with
  | native linked =>
      rcases link_success linked with same | added
      · rw [same]
        exact ⟨rfl, rfl, List.prefix_rfl⟩
      · rw [added]
        exact ⟨rfl, rfl, List.prefix_append _ _⟩
  | compiled => exact ⟨rfl, rfl, List.prefix_rfl⟩

theorem EmitsPlain.extends {program : Program} {activation : Activation}
    {before after : Usage} {instruction : Instruction} {items : List C.Item}
    (emitted : EmitsPlain program activation before instruction items after) :
    before.Extends after := by
  cases emitted with
  | compute _ => exact .refl _
  | branch _ => exact .refl _
  | jump => exact .refl _
  | leave _ => exact .refl _
  | called _ _ _ _ _ _ links calls =>
      obtain ⟨results, expansions, natives⟩ := links.unchanged
      have linked : before.Extends _ :=
        ⟨natives, results ▸ List.prefix_rfl, Nat.le_of_eq expansions.symm⟩
      rcases call_success calls with ⟨_, _, rfl⟩ | ⟨result, _, _, rfl⟩
      · exact linked
      · exact linked.trans (Usage.extends_keeping _ _ _)

theorem Emits.extends {program : Program} {dormant : List CalleeNumber}
    {activation : Activation} {before after : Usage} {lines : List Line}
    {items : List C.Item}
    (emitted : Emits program dormant activation before lines items after) :
    before.Extends after := by
  induction emitted with
  | nil => exact .refl _
  | start _ induction => exact induction
  | plain emitted _ induction => exact emitted.extends.trans induction
  | expanded _ _ _ _ _ _ _ _ _ _ inside later =>
      exact (Usage.extends_expanding _).trans (inside.trans later)

theorem EmitsPlain.sound {program : Program} {activation : Activation}
    {before after : Usage} {instruction : Instruction} {items : List C.Item}
    (emitted : EmitsPlain program activation before instruction items after)
    (sound : before.Sound program) : after.Sound program := by
  cases emitted with
  | compute _ => exact sound
  | branch _ => exact sound
  | jump => exact sound
  | leave _ => exact sound
  | called found _ _ _ _ _ links calls =>
      obtain ⟨results, _, _⟩ := links.unchanged
      have linkedSound : Usage.Sound program _ :=
        ⟨by rw [Usage.keptResults, results]; exact sound.distinct,
          by rw [Usage.keptResults, results]; exact sound.named⟩
      rcases call_success calls with ⟨_, _, rfl⟩ | ⟨result, _, _, rfl⟩
      · exact linkedSound
      · exact linkedSound.keeping (List.mem_of_getElem? found) _

theorem Emits.sound {program : Program} {dormant : List CalleeNumber}
    {activation : Activation} {before after : Usage} {lines : List Line}
    {items : List C.Item}
    (emitted : Emits program dormant activation before lines items after)
    (sound : before.Sound program) : after.Sound program := by
  induction emitted with
  | nil => exact sound
  | start _ induction => exact induction sound
  | plain emitted _ induction => exact induction (emitted.sound sound)
  | expanded _ _ _ _ _ _ _ _ _ _ inside later =>
      exact later (inside ⟨sound.distinct, sound.named⟩)

/-- The natives are callees of the program. -/
def OwnNatives (program : Program) (natives : List NativeFunction) : Prop :=
  ∀ native ∈ natives, .native native ∈ program.callees

theorem Usage.natives_keeping (usage : Usage) (callee : String) (type : TypeNumber) :
    (usage.keeping callee type).natives = usage.natives := by
  unfold keeping
  split <;> rfl

theorem Links.own {program : Program} {types : TypeStore} {callee : Callee}
    {before after : Usage} (links : Links types callee before after)
    (member : callee ∈ program.callees) (own : OwnNatives program before.natives) :
    OwnNatives program after.natives := by
  cases links with
  | compiled => exact own
  | native success =>
      rcases link_success success with rfl | rfl
      · exact own
      · intro native isNative
        rcases List.mem_append.mp isNative with earlier | added
        · exact own native earlier
        · rw [List.mem_singleton.mp added]
          exact member

theorem EmitsPlain.own {program : Program} {activation : Activation}
    {before after : Usage} {instruction : Instruction} {items : List C.Item}
    (emitted : EmitsPlain program activation before instruction items after)
    (own : OwnNatives program before.natives) : OwnNatives program after.natives := by
  cases emitted with
  | compute _ => exact own
  | branch _ => exact own
  | jump => exact own
  | leave _ => exact own
  | called found _ _ _ _ _ links calls =>
      have linkedOwn := links.own (List.mem_of_getElem? found) own
      rcases call_success calls with ⟨_, _, rfl⟩ | ⟨result, _, _, rfl⟩
      · exact linkedOwn
      · rw [Usage.natives_keeping]
        exact linkedOwn

theorem Emits.own {program : Program} {dormant : List CalleeNumber}
    {activation : Activation} {before after : Usage} {lines : List Line}
    {items : List C.Item}
    (emitted : Emits program dormant activation before lines items after)
    (own : OwnNatives program before.natives) : OwnNatives program after.natives := by
  induction emitted with
  | nil => exact own
  | start _ induction => exact induction own
  | plain emitted _ induction => exact induction (emitted.own own)
  | expanded _ _ _ _ _ _ _ _ _ _ inside later => exact later (inside own)

theorem definition_own {program : Program} {function : BodiedFunction}
    {natives : List NativeFunction} {result : C.Definition × List NativeFunction}
    (own : OwnNatives program natives)
    (success : definition program function natives = .ok result) :
    OwnNatives program result.2 := by
  obtain ⟨lowered, used⟩ := result
  cases definition_defines success with
  | mk _ _ emitted _ _ _ _ => exact emitted.own own

theorem definitions_own {program : Program} {functions : List BodiedFunction}
    {natives all : List NativeFunction} {lowered : List C.Definition}
    (own : OwnNatives program natives)
    (success : definitions program natives functions = .ok (lowered, all)) :
    OwnNatives program all := by
  induction functions generalizing natives lowered with
  | nil =>
      cases success
      exact own
  | cons function later induction =>
      obtain ⟨⟨definition, used⟩, defined, success⟩ := Success.bind_iff.mp success
      obtain ⟨⟨others, last⟩, definesOthers, success⟩ := Success.bind_iff.mp success
      cases success
      exact induction (definition_own own defined) definesOthers

end CBackend.Lowering
