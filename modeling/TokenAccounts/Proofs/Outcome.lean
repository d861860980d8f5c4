import Mathlib.Data.List.Forall2
import TokenAccounts.Error

/-!
# Outcomes one after the other

A step that goes on after another succeeds if both do, and fails with the first failure.  So do
steps that are made for the values of a list in turn.
-/

namespace TokenAccounts

namespace Outcome

variable {α β : Type} {outcome : Except Error α} {next : α → Except Error β}

@[simp] theorem ok_bind (value : α) (next : α → Except Error β) :
    (Except.ok value >>= next) = next value := rfl

@[simp] theorem error_bind (error : Error) (next : α → Except Error β) :
    (Except.error error >>= next) = .error error := rfl

theorem bind_eq_ok_iff {result : β} :
    (outcome >>= next) = .ok result ↔ ∃ value, outcome = .ok value ∧ next value = .ok result := by
  cases outcome <;> simp

theorem bind_eq_error_iff {error : Error} :
    (outcome >>= next) = .error error ↔
      outcome = .error error ∨ ∃ value, outcome = .ok value ∧ next value = .error error := by
  cases outcome <;> simp

variable {change : α → β}

theorem map_eq_ok_iff {result : β} :
    outcome.map change = .ok result ↔ ∃ value, outcome = .ok value ∧ change value = result := by
  cases outcome <;> simp [Except.map]

theorem map_eq_error_iff {error : Error} :
    outcome.map change = .error error ↔ outcome = .error error := by
  cases outcome <;> simp [Except.map]

/-! ## One step for every value of a list -/

variable {step : α → Except Error β} {values : List α}

theorem mapM_eq_ok_iff {results : List β} :
    values.mapM step = .ok results ↔
      List.Forall₂ (fun value result => step value = .ok result) values results := by
  induction values generalizing results with
  | nil =>
      rw [List.mapM_nil, List.forall₂_nil_left_iff]
      exact ⟨fun same => (by cases same; rfl), fun same => (by cases same; rfl)⟩
  | cons value values ih =>
      rw [List.mapM_cons, List.forall₂_cons_left_iff]
      constructor
      · intro every
        rcases bind_eq_ok_iff.mp every with ⟨first, firstOk, rest⟩
        rcases bind_eq_ok_iff.mp rest with ⟨others, othersOk, same⟩
        cases same
        exact ⟨first, others, firstOk, ih.mp othersOk, rfl⟩
      · intro conditions
        rcases conditions with ⟨first, others, firstOk, othersOk, rfl⟩
        rw [firstOk, ok_bind, ih.mpr othersOk, ok_bind]
        rfl

/-- Steps for a list fail with the failure of the first value that has one. -/
theorem mapM_eq_error_iff {error : Error} :
    values.mapM step = .error error ↔
      ∃ before failed after, values = before ++ failed :: after ∧
        (∀ value ∈ before, ∃ result, step value = .ok result) ∧ step failed = .error error := by
  induction values with
  | nil => simp [pure, Except.pure]
  | cons value values ih =>
      rw [List.mapM_cons]
      constructor
      · intro failure
        cases first : step value with
        | error cause =>
            rw [first] at failure
            cases failure
            exact ⟨[], value, values, rfl, by simp, first⟩
        | ok result =>
            rw [first, ok_bind] at failure
            rcases bind_eq_error_iff.mp failure with later | ⟨_, _, impossible⟩
            · rcases ih.mp later with ⟨before, failed, after, rfl, passed, failedStep⟩
              refine ⟨value :: before, failed, after, rfl, ?_, failedStep⟩
              exact List.forall_mem_cons.mpr ⟨⟨result, first⟩, passed⟩
            · cases impossible
      · intro conditions
        rcases conditions with ⟨before, failed, after, same, passed, failedStep⟩
        cases before with
        | nil =>
            cases same
            rw [failedStep, error_bind]
        | cons first before =>
            cases same
            rcases List.forall_mem_cons.mp passed with ⟨⟨result, firstOk⟩, others⟩
            rw [firstOk, ok_bind, ih.mpr ⟨before, failed, after, rfl, others, failedStep⟩,
              error_bind]

end Outcome

end TokenAccounts
