import Mathlib.Logic.Function.Iterate
import CBackend.Program.Instruction

/-!
# Running and observing

Programs and the C generated from them are run by different machines in one
setting: the same operators and comparisons, the same functions called from
outside and the same initial values of variables.  What can be observed of a
run is the sequence of outside calls, which may be endless, and the values
returned together with the state the calls have left.

One machine simulates another when every step is followed by at least one
step of the other into a related state.  Both are deterministic, so
this is enough for equal behaviour.
-/

namespace CBackend.Execution

/-- The meaning of everything that a program leaves open. -/
structure Setting (Value World : Type) where
  compute : Operator → Value → Value → Value
  holds : Comparison → Value → Value → Bool
  /-- What a function called by its symbol returns, and the outside state
  after the call. -/
  answer : String → List Value → World → Value × World
  /-- The value that a variable has before it is assigned.  Register files
  are numbered as they are created, and variables within each. -/
  initial : Nat → Nat → Value

/-- A call of a function from outside. -/
structure Call (Value : Type) where
  symbol : String
  args : List Value

/-- What a run has done to the outside. -/
structure Effects (Value World : Type) where
  world : World
  calls : List (Call Value)
  /-- The number of register files created so far. -/
  created : Nat

namespace Effects

/-- Nothing has been called, and the first register file exists. -/
def start (world : World) : Effects Value World := ⟨world, [], 1⟩

def calling (setting : Setting Value World) (effects : Effects Value World)
    (symbol : String) (args : List Value) : Value × Effects Value World :=
  let (value, world) := setting.answer symbol args effects.world
  (value, { effects with world, calls := effects.calls ++ [⟨symbol, args⟩] })

def creating (effects : Effects Value World) : Effects Value World :=
  { effects with created := effects.created + 1 }

end Effects

/-- A machine at work, after it has returned, or where it cannot go on. -/
inductive State (Control Value World : Type) where
  | running (control : Control) (effects : Effects Value World)
  | returned (values : List Value) (effects : Effects Value World)
  | stuck (effects : Effects Value World)

def State.effects : State Control Value World → Effects Value World
  | .running _ effects | .returned _ effects | .stuck effects => effects

/-- One step of a machine from its control state. -/
abbrev Step (Control Value World : Type) :=
  Control → Effects Value World → State Control Value World

namespace Step

/-- A machine that is not running stays as it is. -/
def advance (step : Step Control Value World) :
    State Control Value World → State Control Value World
  | .running control effects => step control effects
  | ended => ended

def run (step : Step Control Value World) (time : Nat) :
    State Control Value World → State Control Value World :=
  step.advance^[time]

theorem run_add (step : Step Control Value World) (later earlier : Nat)
    (state : State Control Value World) :
    step.run (later + earlier) state = step.run later (step.run earlier state) :=
  Function.iterate_add_apply step.advance later earlier state

theorem run_one_add (step : Step Control Value World) (time : Nat)
    (control : Control) (effects : Effects Value World) :
    step.run (time + 1) (.running control effects) =
      step.run time (step control effects) :=
  Function.iterate_succ_apply step.advance time _

/-- The outside calls of a machine are never taken back. -/
def CallsGrow (step : Step Control Value World) : Prop :=
  ∀ control effects, effects.calls <+: (step control effects).effects.calls

theorem CallsGrow.run {step : Step Control Value World} (grow : step.CallsGrow)
    (time : Nat) (state : State Control Value World) :
    state.effects.calls <+: (step.run time state).effects.calls := by
  induction time generalizing state with
  | zero => exact List.prefix_rfl
  | succ time induction =>
      have later := induction (step.advance state)
      cases state with
      | running control effects => exact (grow control effects).trans later
      | returned values effects => exact later
      | stuck effects => exact later

theorem run_returned (step : Step Control Value World) (time : Nat)
    (values : List Value) (effects : Effects Value World) :
    step.run time (.returned values effects) = .returned values effects :=
  Function.iterate_fixed rfl time

theorem run_stuck (step : Step Control Value World) (time : Nat)
    (effects : Effects Value World) :
    step.run time (.stuck effects) = .stuck effects :=
  Function.iterate_fixed rfl time

/-- A state is reached after some number of steps. -/
def Reaches (step : Step Control Value World)
    (first second : State Control Value World) : Prop :=
  ∃ time, step.run time first = second

theorem Reaches.refl {step : Step Control Value World}
    (state : State Control Value World) : step.Reaches state state :=
  ⟨0, rfl⟩

theorem Reaches.trans {step : Step Control Value World}
    {first second third : State Control Value World}
    (earlier : step.Reaches first second) (later : step.Reaches second third) :
    step.Reaches first third := by
  obtain ⟨earlierTime, rfl⟩ := earlier
  obtain ⟨laterTime, rfl⟩ := later
  exact ⟨laterTime + earlierTime, run_add step _ _ first⟩

theorem Reaches.head {step : Step Control Value World} {control : Control}
    {effects : Effects Value World} {last : State Control Value World}
    (later : step.Reaches (step control effects) last) :
    step.Reaches (.running control effects) last := by
  obtain ⟨time, same⟩ := later
  exact ⟨time + 1, (run_one_add step time control effects).trans same⟩

end Step

/-- A run, as the state at each time. -/
abbrev Run (Control Value World : Type) := Nat → State Control Value World

def Step.runFrom (step : Step Control Value World)
    (state : State Control Value World) : Run Control Value World :=
  fun time => step.run time state

namespace Run

/-- The outside call at a position in the sequence of all calls. -/
def Makes (run : Run Control Value World) (position : Nat) (call : Call Value) :
    Prop :=
  ∃ time, (run time).effects.calls[position]? = some call

def Returns (run : Run Control Value World) (values : List Value) (world : World) :
    Prop :=
  ∃ time effects, run time = .returned values effects ∧ effects.world = world

def Safe (run : Run Control Value World) : Prop :=
  ∀ time effects, run time ≠ .stuck effects

end Run

/-- Two runs that cannot be told apart from outside: they make the same
calls in the same order, both return the same values or neither returns, and
neither gets stuck. -/
structure SameBehaviour (left : Run Control Value World)
    (right : Run Other Value World) : Prop where
  calls : ∀ position call, left.Makes position call ↔ right.Makes position call
  returns : ∀ values world, left.Returns values world ↔ right.Returns values world
  leftSafe : left.Safe
  rightSafe : right.Safe

/-- States that agree on everything outside, with related control. -/
inductive Matches (Related : Control → Other → Prop) :
    State Control Value World → State Other Value World → Prop where
  | running {control : Control} {other : Other} {effects : Effects Value World}
      (related : Related control other) :
      Matches Related (.running control effects) (.running other effects)
  | returned {values : List Value} {effects : Effects Value World} :
      Matches Related (.returned values effects) (.returned values effects)

namespace Matches

variable {Related : Control → Other → Prop}

theorem effects_eq {left : State Control Value World}
    {right : State Other Value World} (matched : Matches Related left right) :
    left.effects = right.effects := by
  cases matched with
  | running _ => rfl
  | returned => rfl

theorem returned_iff {left : State Control Value World}
    {right : State Other Value World} (matched : Matches Related left right)
    {values : List Value} {effects : Effects Value World} :
    left = .returned values effects ↔ right = .returned values effects := by
  cases matched with
  | running _ => simp
  | returned => simp

theorem left_not_stuck {left : State Control Value World}
    {right : State Other Value World} (matched : Matches Related left right)
    (effects : Effects Value World) : left ≠ .stuck effects := by
  cases matched with
  | running _ => simp
  | returned => simp

theorem right_not_stuck {left : State Control Value World}
    {right : State Other Value World} (matched : Matches Related left right)
    (effects : Effects Value World) : right ≠ .stuck effects := by
  cases matched with
  | running _ => simp
  | returned => simp

end Matches

/-- Every step from related states is followed by at least one step. -/
def Simulates (step : Step Control Value World) (follow : Step Other Value World)
    (Related : Control → Other → Prop) : Prop :=
  ∀ control other effects, Related control other →
    ∃ reached, Matches Related (step control effects) reached ∧
      follow.Reaches (follow other effects) reached

namespace Simulates

variable {step : Step Control Value World} {follow : Step Other Value World}
  {Related : Control → Other → Prop}

private theorem matches_advance (simulates : Simulates step follow Related)
    {left : State Control Value World} {right : State Other Value World}
    (matched : Matches Related left right) :
    ∃ extra, Matches Related (step.advance left) (follow.run (extra + 1) right) := by
  cases matched with
  | returned =>
      refine ⟨0, ?_⟩
      rw [Step.run_returned]
      exact .returned
  | running related =>
      obtain ⟨reached, matched, extra, same⟩ := simulates _ _ _ related
      refine ⟨extra, ?_⟩
      rw [Step.run_one_add, same]
      exact matched

variable {first : State Control Value World} {second : State Other Value World}

/-- Whatever the first machine does, the second does in at least the same
time. -/
theorem follows (simulates : Simulates step follow Related)
    (start : ∃ time, Matches Related first (follow.run time second)) (time : Nat) :
    ∃ later, time ≤ later ∧
      Matches Related (step.run time first) (follow.run later second) := by
  induction time with
  | zero =>
      obtain ⟨later, matched⟩ := start
      exact ⟨later, Nat.zero_le _, matched⟩
  | succ time induction =>
      obtain ⟨later, bound, matched⟩ := induction
      obtain ⟨extra, matchedNext⟩ := simulates.matches_advance matched
      refine ⟨(extra + 1) + later, by omega, ?_⟩
      rw [Nat.add_comm time 1, Step.run_add, Step.run_add]
      exact matchedNext

private theorem makes_iff (simulates : Simulates step follow Related)
    (grow : follow.CallsGrow)
    (start : ∃ time, Matches Related first (follow.run time second))
    (position : Nat) (call : Call Value) :
    (step.runFrom first).Makes position call ↔
      (follow.runFrom second).Makes position call := by
  constructor
  · intro made
    obtain ⟨time, found⟩ := made
    obtain ⟨later, _, matched⟩ := simulates.follows start time
    refine ⟨later, ?_⟩
    rw [Step.runFrom, ← matched.effects_eq]
    exact found
  · intro made
    obtain ⟨time, found⟩ := made
    obtain ⟨later, bound, matched⟩ := simulates.follows start time
    refine ⟨time, ?_⟩
    have grown := grow.run (later - time) (follow.run time second)
    rw [← Step.run_add, Nat.sub_add_cancel bound] at grown
    rw [Step.runFrom, matched.effects_eq]
    obtain ⟨inside, same⟩ := List.getElem?_eq_some_iff.mp found
    rw [← same]
    exact List.prefix_iff_getElem?.mp grown position inside

private theorem returns_iff (simulates : Simulates step follow Related)
    (start : ∃ time, Matches Related first (follow.run time second))
    (values : List Value) (world : World) :
    (step.runFrom first).Returns values world ↔
      (follow.runFrom second).Returns values world := by
  constructor
  · intro returns
    obtain ⟨time, effects, ended, left⟩ := returns
    obtain ⟨later, _, matched⟩ := simulates.follows start time
    exact ⟨later, effects, matched.returned_iff.mp ended, left⟩
  · intro returns
    obtain ⟨time, effects, ended, left⟩ := returns
    obtain ⟨later, bound, matched⟩ := simulates.follows start time
    have stays : follow.run later second = .returned values effects := by
      rw [← Nat.sub_add_cancel bound, Step.run_add]
      rw [Step.runFrom] at ended
      rw [ended, Step.run_returned]
    exact ⟨time, effects, matched.returned_iff.mpr stays, left⟩

/-- Simulation gives equal behaviour.  The second machine may be ahead of its
match, but calls are never taken back, and a run that has returned stays where
it is. -/
theorem sameBehaviour (simulates : Simulates step follow Related)
    (grow : follow.CallsGrow)
    (start : ∃ time, Matches Related first (follow.run time second)) :
    SameBehaviour (step.runFrom first) (follow.runFrom second) := by
  refine ⟨simulates.makes_iff grow start, simulates.returns_iff start, ?_, ?_⟩
  · intro time effects stuck
    obtain ⟨later, _, matched⟩ := simulates.follows start time
    exact matched.left_not_stuck effects stuck
  · intro time effects stuck
    obtain ⟨later, bound, matched⟩ := simulates.follows start time
    apply matched.right_not_stuck effects
    rw [← Nat.sub_add_cancel bound, Step.run_add]
    rw [Step.runFrom] at stuck
    rw [stuck, Step.run_stuck]

end Simulates

end CBackend.Execution
