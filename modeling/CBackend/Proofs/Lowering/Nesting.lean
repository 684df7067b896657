import CBackend.Proofs.Lowering.CheckedSites
import CBackend.Proofs.Lowering.Parts
import CBackend.Proofs.Program.Stability

/-!
# How deep expansions nest

Lowering can also be told which inline functions are being expanded instead of
which are not, and how deep it may go.  No expansion is ever begun beyond as
many as there are inline functions, whatever would happen there: that many
distinct ones are active by then, and any other is expanded again.
-/

namespace CBackend

def Callee.inlined? : Callee → Option BodiedFunction
  | .inlined function => some function
  | .native _ | .compiled _ => none

/-- The inline functions of a program, in order. -/
def Program.inlineFunctions (program : Program) : List BodiedFunction :=
  program.callees.filterMap Callee.inlined?

theorem Program.mem_inlineFunctions {program : Program} {number : CalleeNumber}
    {function : BodiedFunction} (found : program.callees[number]? = some (.inlined function)) :
    function ∈ program.inlineFunctions :=
  List.mem_filterMap.mpr ⟨_, List.mem_of_getElem? found, rfl⟩

/-- Callees of one name are the same callee. -/
theorem Program.CalleesDistinct.number_unique {program : Program}
    (distinct : program.CalleesDistinct) {first second : CalleeNumber} {callee other : Callee}
    (found : program.callees[first]? = some callee)
    (otherFound : program.callees[second]? = some other) (sameName : callee.name = other.name) :
    first = second := by
  have isFirst := (findCallee?_iff distinct).mpr ⟨callee, found, sameName⟩
  have isSecond := (findCallee?_iff distinct).mpr ⟨other, otherFound, rfl⟩
  exact Option.some.inj (isFirst.symm.trans isSecond)

namespace Lowering

/-- The inline functions being expanded, each with its number, the outermost
first. -/
abbrev Stack := List (CalleeNumber × BodiedFunction)

namespace Stack

def numbers (stack : Stack) : List CalleeNumber := stack.map Prod.fst

def functions (stack : Stack) : List BodiedFunction := stack.map Prod.snd

def names (stack : Stack) : List String := stack.functions.map BodiedFunction.name

@[simp] theorem numbers_push (stack : Stack) (number : CalleeNumber) (function : BodiedFunction) :
    numbers (stack ++ [(number, function)]) = stack.numbers ++ [number] := List.map_append

@[simp] theorem functions_push (stack : Stack) (number : CalleeNumber)
    (function : BodiedFunction) :
    functions (stack ++ [(number, function)]) = stack.functions ++ [function] := List.map_append

@[simp] theorem names_push (stack : Stack) (number : CalleeNumber) (function : BodiedFunction) :
    names (stack ++ [(number, function)]) = stack.names ++ [function.name] := by
  rw [names, functions_push, List.map_append]
  rfl

end Stack

/-- A stack of distinct inline functions of the program, next to the callees
that are not on it. -/
structure Active (program : Program) (stack : Stack) (dormant : List CalleeNumber) : Prop where
  inlined : ∀ entry ∈ stack, program.callees[entry.1]? = some (.inlined entry.2)
  distinct : stack.numbers.Nodup
  others : program.DormantIn stack.numbers dormant

namespace Active

variable {program : Program} {stack : Stack} {dormant : List CalleeNumber}
  {number : CalleeNumber} {function : BodiedFunction}

theorem nil : Active program [] (List.range program.callees.length) :=
  ⟨nofun, List.nodup_nil, Program.dormantIn_nil⟩

theorem dormant_iff (active : Active program stack dormant)
    (found : program.callees[number]? = some (.inlined function)) :
    number ∈ dormant ↔ number ∉ stack.numbers := by
  have inside : number < program.callees.length := (List.getElem?_eq_some_iff.mp found).1
  rw [active.others.2, and_iff_right inside]

theorem push (active : Active program stack dormant) (isDormant : number ∈ dormant)
    (found : program.callees[number]? = some (.inlined function)) :
    Active program (stack ++ [(number, function)]) (dormant.erase number) := by
  have fresh := (active.dormant_iff found).mp isDormant
  refine ⟨?_, ?_, ?_⟩
  · intro entry member
    rcases List.mem_append.mp member with old | new
    · exact active.inlined entry old
    · rw [List.mem_singleton.mp new]
      exact found
  · rw [Stack.numbers_push, ← List.concat_eq_append]
    exact active.distinct.concat fresh
  · obtain ⟨nodup, members⟩ := active.others.erase number
    refine ⟨nodup, ?_⟩
    intro other
    rw [members, Stack.numbers_push, List.mem_append, List.mem_singleton, List.mem_cons, or_comm]

/-- What is expanded again stands on the stack. -/
theorem mem_functions (active : Active program stack dormant)
    (found : program.callees[number]? = some (.inlined function))
    (again : number ∈ stack.numbers) : function ∈ stack.functions := by
  obtain ⟨⟨_, other⟩, member, rfl⟩ := List.mem_map.mp again
  have sameCallee := found.symm.trans (active.inlined _ member)
  cases sameCallee
  exact List.mem_map_of_mem member

theorem names_nodup (active : Active program stack dormant)
    (distinct : program.CalleesDistinct) : stack.names.Nodup := by
  rw [Stack.names, Stack.functions, List.map_map]
  refine List.Nodup.map_on ?_ (List.Nodup.of_map _ active.distinct)
  intro first isFirst second isSecond sameName
  have sameNumber := distinct.number_unique (active.inlined first isFirst)
    (active.inlined second isSecond) sameName
  exact List.inj_on_of_nodup_map active.distinct isFirst isSecond sameNumber

theorem length_le (active : Active program stack dormant) (distinct : program.CalleesDistinct) :
    stack.length ≤ program.inlineFunctions.length := by
  have known : stack.functions ⊆ program.inlineFunctions := by
    intro function member
    obtain ⟨entry, isEntry, rfl⟩ := List.mem_map.mp member
    exact Program.mem_inlineFunctions (active.inlined entry isEntry)
  have nodup : stack.functions.Nodup := (active.names_nodup distinct).of_map
  have bound := (nodup.subperm known).length_le
  rwa [Stack.functions, List.length_map] at bound

end Active

/-- Expands inline functions that are not on the stack, at most `depth` inside
one another; those beyond are left to `beyond`. -/
def expandWithin (program : Program) (beyond : Expander) (depth : Nat) (stack : Stack) : Expander :=
  fun number function args results =>
    if number ∈ stack.numbers then
      throw (.endlessExpansion (stack.names ++ [function.name]))
    else
      match depth with
      | 0 => beyond number function args results
      | depth + 1 =>
        expansion program (expandWithin program beyond depth (stack ++ [(number, function)]))
          function args results

/-- Two ways to expand the inline functions of a program that agree. -/
def SameExpansions (program : Program) (first second : Expander) : Prop :=
  ∀ number function, program.callees[number]? = some (.inlined function) →
    first number function = second number function

namespace SameExpansions

variable {program : Program} {first second : Expander}

theorem invoke_eq (same : SameExpansions program first second) (activation : Activation)
    (number : CalleeNumber) (args results : List RegisterNumber) :
    invoke program first activation number args results =
      invoke program second activation number args results := by
  unfold invoke
  cases found : program.callees[number]? with
  | none => rfl
  | some callee =>
      cases callee with
      | native _ => rfl
      | compiled _ => rfl
      | inlined function =>
          dsimp only
          rw [same number function found]

theorem instruction_eq (same : SameExpansions program first second) (activation : Activation) :
    instruction program first activation = instruction program second activation := by
  funext instruction
  cases instruction with
  | compute operator target left right => rfl
  | branch target test left right => rfl
  | jump target => rfl
  | invoke callee args results => exact same.invoke_eq activation callee args results
  | leave => rfl

theorem blocks_eq (same : SameExpansions program first second) (activation : Activation) :
    blocks program first activation = blocks program second activation := by
  unfold blocks block
  rw [same.instruction_eq activation]

theorem expansion_eq (same : SameExpansions program first second) (function : BodiedFunction) :
    expansion program first function = expansion program second function := by
  funext args results
  unfold expansion
  simp only [same.blocks_eq]

theorem codeBy_eq (same : SameExpansions program first second) (activation : Activation) :
    codeBy program first activation = codeBy program second activation := by
  unfold codeBy
  rw [same.blocks_eq]

end SameExpansions

theorem expandWithin_again {program : Program} {beyond : Expander} {depth : Nat} {stack : Stack}
    {number : CalleeNumber} (again : number ∈ stack.numbers) (function : BodiedFunction)
    (args results : List C.Variable) :
    expandWithin program beyond depth stack number function args results =
      throw (.endlessExpansion (stack.names ++ [function.name])) := by
  unfold expandWithin
  exact if_pos again

namespace Active

variable {program : Program} {depth : Nat} {stack : Stack} {dormant : List CalleeNumber}

/-- What is expanded again is reported alike. -/
theorem again_same (active : Active program stack dormant) {beyond : Expander}
    {number : CalleeNumber} {function : BodiedFunction}
    (found : program.callees[number]? = some (.inlined function))
    (again : number ∈ stack.numbers) :
    expandWithin program beyond depth stack number function =
      expand program dormant stack.names number function := by
  have notDormant : number ∉ dormant := fun isDormant =>
    (active.dormant_iff found).mp isDormant again
  funext args results
  rw [expandWithin_again again, expand_again notDormant]

/-- Within as many levels as there are inline functions not on the stack, the
depth makes no difference. -/
theorem expandWithin_same (active : Active program stack dormant)
    (distinct : program.CalleesDistinct) (beyond : Expander)
    (enough : program.inlineFunctions.length ≤ stack.length + depth) :
    SameExpansions program (expandWithin program beyond depth stack)
      (expand program dormant stack.names) := by
  induction depth generalizing stack dormant with
  | zero =>
      intro number function found
      apply active.again_same found
      by_contra fresh
      have pushed := active.push ((active.dormant_iff found).mpr fresh) found
      have bound := pushed.length_le distinct
      rw [List.length_append, List.length_singleton] at bound
      omega
  | succ depth induction =>
      intro number function found
      by_cases again : number ∈ stack.numbers
      · exact active.again_same found again
      · have isDormant := (active.dormant_iff found).mpr again
        have inner := induction (active.push isDormant found) (by
          rw [List.length_append, List.length_singleton]
          omega)
        rw [Stack.names_push] at inner
        funext args results
        rw [expandWithin, if_neg again, expand_dormant isDormant, inner.expansion_eq]

end Active

/-- The code of a definition needs no more levels of expansion than there are
inline functions. -/
theorem codeBy_expandWithin {program : Program} (distinct : program.CalleesDistinct)
    (beyond : Expander) (activation : Activation) :
    codeBy program (expandWithin program beyond program.inlineFunctions.length []) activation =
      code program activation := by
  have same := Active.nil.expandWithin_same distinct beyond (Nat.le_add_left _ _)
  rw [code_eq_codeBy, same.codeBy_eq]
  rfl

end Lowering

end CBackend
