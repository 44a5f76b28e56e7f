import Tendril.Proofs.Plan.Output

/-!
# Kinds of reports

A device tells reports apart by their kinds. A sweep has no stack that could be empty, and a growth
no rings that could differ; the rest of the kinds can come from either.
-/

namespace Tendril

namespace Failure

variable {α : Type} {failure : Failure α}

theorem kind_of_ne_emptyStack (other : failure ≠ .emptyStack) :
    failure.kind ∈ ["configuration", "index_mismatch", "divide_by_zero"] := by
  cases failure with
  | emptyStack => exact absurd rfl other
  | _ => simp [kind]

theorem kind_of_ne_mismatch
    (other : ∀ junction expected found, failure ≠ .mismatch junction expected found) :
    failure.kind ∈ ["configuration", "divide_by_zero", "empty_stack"] := by
  cases failure with
  | mismatch junction expected found => exact absurd rfl (other junction expected found)
  | _ => simp [kind]

end Failure

/-- No check of a plan is about a stack. -/
theorem SweepPlan.ne_emptyStack_of_fault? {α : Type} [Scalar α] {p : SweepPlan α}
    {failure : Failure α} (refused : p.fault? = some failure) : failure ≠ .emptyStack := by
  rintro rfl
  have here := mem_of_firstFailure refused
  simp only [List.mem_cons, List.not_mem_nil, or_false] at here
  rcases here with coarse | unequal | still | lost
  · unfold Profile.resolutionFault? at coarse
    split at coarse <;> cases coarse
  · obtain ⟨target, _, unlike⟩ := Option.bind_eq_some_iff.mp unequal.symm
    split at unlike <;> cases unlike
  · unfold iterationFault? at still
    split at still <;> cases still
  · cases eq_of_lack lost.symm

namespace Device

variable {σ : Type} [WordSource σ] {text : String} {report : Report}

theorem reported_eq_error_iff {β : Type} {run : Except (Failure Float) β} :
    reported run = .error report ↔
      ∃ failure, run = .error failure ∧ report = .ofFailure failure := by
  cases run <;> simp [reported, Except.mapError, eq_comm]

theorem reported_bind_eq_error_iff {β γ : Type} {run : Except (Failure Float) β} {made : β → γ} :
    (reported run >>= fun b => pure (made b)) = Except.error report ↔
      ∃ failure, run = .error failure ∧ report = .ofFailure failure := by
  rw [← reported_eq_error_iff]
  cases run <;> simp [reported, Except.mapError, bind, Except.bind, pure, Except.pure]

/-- A text without a plan is reported as such, whatever kind of plan it should hold. -/
theorem eq_unreadable {β : Type} {plan : Option β}
    (refused : plan.elim (.error .unreadable) .ok = Except.error report) :
    report = .unreadable := by
  cases plan <;> cases refused
  rfl

theorem sweep_kind (refused : sweep text = .error report) :
    report.kind ∈ ["invalid_json", "configuration", "index_mismatch", "divide_by_zero"] := by
  rcases bind_eq_error_iff.mp refused with unread | ⟨p, _, failed⟩
  · rw [eq_unreadable unread]
    decide
  · obtain ⟨failure, stopped, rfl⟩ := reported_bind_eq_error_iff.mp failed
    rw [← failure?_eq_some_iff, SweepPlan.failure?_mesh] at stopped
    exact List.mem_cons_of_mem _
      (Failure.kind_of_ne_emptyStack (SweepPlan.ne_emptyStack_of_fault? stopped))

/-- The kinds of failures that keep segments from being drawn. -/
theorem segments_kind {p : GrowthPlan Float} {source : σ} {failure : Failure Float}
    (stopped : p.segments source = .error failure) :
    failure.kind ∈ ["configuration", "divide_by_zero", "empty_stack"] := by
  rw [← failure?_eq_some_iff, GrowthPlan.failure?_segments] at stopped
  exact Failure.kind_of_ne_mismatch (GrowthPlan.ne_mismatch_of_fault? stopped)

theorem growth_kind {source : σ} (refused : growth text source = .error report) :
    report.kind ∈ ["invalid_json", "configuration", "divide_by_zero", "empty_stack"] := by
  cases read : growthPlan text with
  | error unread =>
      rw [growth_of_unread read] at refused
      cases refused
      rw [eq_unreadable read]
      decide
  | ok p =>
      obtain ⟨failure, stopped, rfl⟩ := (growth_eq_error_iff read source).mp refused
      exact List.mem_cons_of_mem _ (segments_kind stopped)

theorem koch_kind {iterations : UInt32} {source : σ}
    (refused : koch iterations source = .error report) :
    report.kind ∈ ["configuration", "divide_by_zero", "empty_stack"] := by
  obtain ⟨failure, stopped, rfl⟩ := reported_bind_eq_error_iff.mp refused
  exact segments_kind stopped

theorem box_kind {width height depth : Float} (refused : box width height depth = .error report) :
    report.kind = "configuration" := by
  obtain ⟨failure, stopped, rfl⟩ := reported_bind_eq_error_iff.mp refused
  unfold cuboid at stopped
  split at stopped
  · cases stopped
  · cases stopped
    rfl

end Device

end Tendril
