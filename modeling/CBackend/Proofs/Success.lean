import Mathlib.Data.List.Forall2
import CBackend.Lowering.Definition

/-!
# Successful computations

A computation that may fail has succeeded only if each of its parts has.
The equivalences below take a successful computation apart, first where
there is only failure, then where a state is passed on, and last where
lowering extends what is in use.
-/

namespace CBackend

namespace Success

theorem bind_iff {step : Except ε α} {next : α → Except ε β} {value : β} :
    (step >>= next) = .ok value ↔
      ∃ item, step = .ok item ∧ next item = .ok value := by
  cases step with
  | error cause =>
      constructor
      · intro success
        cases success
      · rintro ⟨item, success, _⟩
        cases success
  | ok first =>
      constructor
      · intro success
        exact ⟨first, rfl, success⟩
      · rintro ⟨item, same, success⟩
        cases same
        exact success

theorem pure_iff {item value : α} :
    (pure item : Except ε α) = .ok value ↔ item = value := by
  constructor
  · intro success
    cases success
    rfl
  · rintro rfl
    rfl

theorem map_iff {step : Except ε α} {form : α → β} {value : β} :
    step.map form = .ok value ↔ ∃ item, step = .ok item ∧ form item = value := by
  cases step with
  | error cause => exact iff_of_false nofun nofun
  | ok item => simp [Except.map]

theorem mapError_iff {step : Except ε α} {tell : ε → δ} {value : α} :
    step.mapError tell = .ok value ↔ step = .ok value := by
  cases step with
  | error cause => exact iff_of_false nofun nofun
  | ok item => simp [Except.mapError]

/-- A list is mapped successfully when each of its elements is. -/
theorem mapM_iff {action : α → Except ε β} {items : List α} {values : List β} :
    items.mapM action = .ok values ↔
      List.Forall₂ (fun item value => action item = .ok value) items values := by
  induction items generalizing values with
  | nil =>
      rw [List.mapM_nil, pure_iff, List.forall₂_nil_left_iff]
      exact eq_comm
  | cons item items induction =>
      rw [List.mapM_cons, bind_iff]
      constructor
      · rintro ⟨first, firstSuccess, success⟩
        obtain ⟨others, othersSuccess, same⟩ := bind_iff.mp success
        cases same
        exact .cons firstSuccess (induction.mp othersSuccess)
      · intro related
        cases related with
        | @cons _ first _ others firstSuccess othersSuccess =>
            refine ⟨first, firstSuccess, ?_⟩
            exact bind_iff.mpr
              ⟨others, induction.mpr othersSuccess, rfl⟩

theorem mapM_total {action : α → Except ε β} {items : List α}
    (each : ∀ item ∈ items, ∃ value, action item = .ok value) :
    ∃ values, items.mapM action = .ok values := by
  induction items with
  | nil => exact ⟨[], rfl⟩
  | cons item items induction =>
      obtain ⟨value, success⟩ := each item List.mem_cons_self
      obtain ⟨values, successes⟩ := induction fun other member =>
        each other (List.mem_cons_of_mem _ member)
      exact ⟨value :: values, mapM_iff.mpr (.cons success (mapM_iff.mp successes))⟩

theorem related_of_mem {relation : α → β → Prop} {items : List α} {values : List β}
    (related : List.Forall₂ relation items values) :
    ∀ item ∈ items, ∃ value ∈ values, relation item value := by
  induction related with
  | nil => exact nofun
  | @cons item value items values first _ induction =>
      intro other member
      rcases List.mem_cons.mp member with rfl | later
      · exact ⟨value, List.mem_cons_self, first⟩
      · obtain ⟨found, isFound, holds⟩ := induction other later
        exact ⟨found, List.mem_cons_of_mem _ isFound, holds⟩

theorem mapM_succeeds_iff {action : α → Except ε β} {items : List α} :
    (∃ values, items.mapM action = .ok values) ↔
      ∀ item ∈ items, ∃ value, action item = .ok value := by
  constructor
  · rintro ⟨values, success⟩ item member
    obtain ⟨value, _, found⟩ := related_of_mem (mapM_iff.mp success) item member
    exact ⟨value, found⟩
  · exact mapM_total

theorem forM_iff {action : α → Except ε PUnit} {items : List α} :
    items.forM action = .ok ⟨⟩ ↔ ∀ item ∈ items, action item = .ok ⟨⟩ := by
  induction items with
  | nil => exact iff_of_true rfl nofun
  | cons item items induction =>
      rw [List.forM, bind_iff, List.forall_mem_cons, ← induction]
      constructor
      · rintro ⟨_, first, others⟩
        exact ⟨first, others⟩
      · rintro ⟨first, others⟩
        exact ⟨⟨⟩, first, others⟩

/-- A successful map is a plain one when success determines each value. -/
theorem mapM_eq_map {action : α → Except ε β} {result : α → β}
    {items : List α} {values : List β}
    (determined : ∀ item value, action item = .ok value → value = result item)
    (success : items.mapM action = .ok values) : values = items.map result := by
  have related := mapM_iff.mp success
  clear success
  induction related with
  | nil => rfl
  | @cons item value items values first others induction =>
      rw [List.map_cons, ← determined item value first, ← induction]

section State

variable {step : StateT σ (Except ε) α} {next : α → StateT σ (Except ε) β}
  {before between after : σ} {item : α} {value : β} {cause : ε}

theorem run_bind_iff :
    (step >>= next) before = .ok (value, after) ↔
      ∃ item between, step before = .ok (item, between) ∧
        next item between = .ok (value, after) := by
  change (step before >>= fun result => next result.1 result.2) = _ ↔ _
  rw [bind_iff]
  exact Prod.exists

theorem run_bind_ok (success : step before = .ok (item, between)) :
    (step >>= next) before = next item between := by
  change (step before >>= fun result => next result.1 result.2) = _
  rw [success]
  rfl

theorem run_bind_error (failure : step before = .error cause) :
    (step >>= next) before = .error cause := by
  change (step before >>= fun result => next result.1 result.2) = _
  rw [failure]
  rfl

end State

end Success

namespace Lowering

theorem bind_success_iff {step : Lower α} {next : α → Lower β}
    {before after : Usage} {value : β} :
    (step >>= next) before = .ok (value, after) ↔
      ∃ item between, step before = .ok (item, between) ∧
        next item between = .ok (value, after) :=
  Success.run_bind_iff

theorem pure_success_iff {item value : α} {before after : Usage} :
    (pure item : Lower α) before = .ok (value, after) ↔
      value = item ∧ after = before := by
  constructor
  · intro success
    cases success
    exact ⟨rfl, rfl⟩
  · rintro ⟨rfl, rfl⟩
    rfl

/-- A part that only may fail leaves what is in use as it was. -/
theorem lift_success_iff {step : Except LoweringError α} {next : α → Lower β}
    {value : β} {before after : Usage} :
    ((liftM step : Lower α) >>= next) before = .ok (value, after) ↔
      ∃ item, step = .ok item ∧ next item before = .ok (value, after) := by
  cases step with
  | error cause =>
      constructor
      · intro success
        cases success
      · rintro ⟨item, success, _⟩
        cases success
  | ok first =>
      constructor
      · intro success
        exact ⟨first, rfl, success⟩
      · rintro ⟨item, same, success⟩
        cases same
        exact success

theorem throw_not_success {cause : LoweringError} {before : Usage}
    {result : α × Usage} : (throw cause : Lower α) before ≠ .ok result := by
  intro success
  cases success

end Lowering

end CBackend
