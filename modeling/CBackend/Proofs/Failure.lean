import CBackend.Proofs.Success

/-!
# Failed computations

What a computation can fail with is what one of its parts can fail with.  The
rules below confine the causes of failure, first where there is only failure
and then where lowering extends what is in use, which has to stay as the parts
expect it.
-/

namespace CBackend

/-- If a computation fails, then for one of the causes allowed. -/
def FailsOnly (allowed : ε → Prop) (result : Except ε α) : Prop :=
  ∀ cause, result = .error cause → allowed cause

namespace FailsOnly

variable {allowed : ε → Prop}

theorem ok (value : α) : FailsOnly allowed (.ok value) := nofun

theorem error {cause : ε} (isAllowed : allowed cause) :
    FailsOnly allowed (.error cause : Except ε α) := by
  intro other same
  cases same
  exact isAllowed

theorem bind {step : Except ε α} {next : α → Except ε β} (first : FailsOnly allowed step)
    (later : ∀ item, step = .ok item → FailsOnly allowed (next item)) :
    FailsOnly allowed (step >>= next) := by
  cases step with
  | error cause => exact error (first cause rfl)
  | ok item => exact later item rfl

theorem mapM {action : α → Except ε β} {items : List α}
    (each : ∀ item ∈ items, FailsOnly allowed (action item)) :
    FailsOnly allowed (items.mapM action) := by
  induction items with
  | nil => exact ok []
  | cons item items induction =>
      obtain ⟨first, later⟩ := List.forall_mem_cons.mp each
      rw [List.mapM_cons]
      apply first.bind
      intro value _
      apply (induction later).bind
      intro values _
      exact ok (value :: values)

theorem forM {action : α → Except ε PUnit} {items : List α}
    (each : ∀ item ∈ items, FailsOnly allowed (action item)) :
    FailsOnly allowed (items.forM action) := by
  induction items with
  | nil => exact ok PUnit.unit
  | cons item items induction =>
      obtain ⟨first, later⟩ := List.forall_mem_cons.mp each
      rw [List.forM]
      exact first.bind fun _ _ => induction later

/-- A query of the store that has an answer. -/
theorem query {allowed : LoweringError → Prop} {step : Except StoreError α}
    {next : α → Except LoweringError β} {item : α} (found : step = .ok item)
    (later : FailsOnly allowed (next item)) :
    FailsOnly allowed ((liftM step : Except LoweringError α) >>= next) := by
  rw [found]
  exact later

end FailsOnly

namespace Lowering

/-- From a good usage a step fails only for the causes allowed, and else
leaves a good one. -/
def Confined (good : Usage → Prop) (allowed : LoweringError → Prop) (step : Lower α) : Prop :=
  ∀ before, good before →
    match step before with
    | .ok (_, after) => good after
    | .error cause => allowed cause

namespace Confined

variable {good : Usage → Prop} {allowed : LoweringError → Prop}

theorem fails {step : Lower α} (confined : Confined good allowed step) {before : Usage}
    (holds : good before) : FailsOnly allowed (step before) := by
  intro cause failure
  have ends := confined before holds
  rw [failure] at ends
  exact ends

theorem keeps {step : Lower α} (confined : Confined good allowed step) {before after : Usage}
    {value : α} (holds : good before) (success : step before = .ok (value, after)) :
    good after := by
  have ends := confined before holds
  rw [success] at ends
  exact ends

theorem pure (value : α) : Confined good allowed (Pure.pure value) := fun _ holds => holds

theorem throw {cause : LoweringError} (isAllowed : allowed cause) :
    Confined good allowed (throw cause : Lower α) := fun _ _ => isAllowed

theorem bind {step : Lower α} {next : α → Lower β} (first : Confined good allowed step)
    (later : ∀ value, Confined good allowed (next value)) :
    Confined good allowed (step >>= next) := by
  intro before holds
  have ends := first before holds
  cases ran : step before with
  | error cause =>
      rw [ran] at ends
      rw [Success.run_bind_error ran]
      exact ends
  | ok result =>
      obtain ⟨value, between⟩ := result
      rw [ran] at ends
      rw [Success.run_bind_ok ran]
      exact later value between ends

/-- A part that only may fail. -/
theorem lift {step : Except LoweringError α} (fails : FailsOnly allowed step) :
    Confined good allowed (liftM step : Lower α) := by
  intro before holds
  cases step with
  | error cause => exact fails cause rfl
  | ok value => exact holds

theorem mapM {action : α → Lower β} {items : List α}
    (each : ∀ item ∈ items, Confined good allowed (action item)) :
    Confined good allowed (items.mapM action) := by
  induction items with
  | nil => exact pure []
  | cons item items induction =>
      obtain ⟨first, later⟩ := List.forall_mem_cons.mp each
      rw [List.mapM_cons]
      refine first.bind fun value => (induction later).bind fun values => ?_
      exact pure (value :: values)

end Confined

end Lowering

end CBackend
