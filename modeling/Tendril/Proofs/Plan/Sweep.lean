import Tendril.Plan.Sweep
import Tendril.Proofs.Sweep.Profile
import Tendril.Proofs.Sweep.Tube
import Tendril.Proofs.Sweep.Valid

/-!
# Carrying out a sweep plan

A plan is refused before its first ring or not at all: its checks are made in a fixed order, the
first that is not passed is the failure, and an axis that passes them all is swept to its end. The
mesh is then as large as the number of iterations and the outline say, and it is valid.
-/

namespace Tendril

variable {α : Type} [Scalar α]

namespace CoilAxis

/-- Directions that make no frame: the tangent, what is left of the normal across it, or the vector
across both has no direction. -/
def directionFault? (tangent normal : Vec3 α) : Option (Failure α) :=
  lack .noDirection do
    let tangent ← tangent.normalize?
    let along ← normal.projectOn? tangent
    let normal ← (normal - along).normalize?
    (normal.cross tangent).normalize?

theorem failure?_make (start tangent normal : Vec3 α) (s : Section α) (maxIterations : Nat) :
    failure? (make start tangent normal s maxIterations) =
      firstFailure [if maxIterations = 0 then some (.misuse .noIterations) else none,
        directionFault? tangent normal] := by
  unfold make
  split
  · rfl
  · rw [firstFailure_cons, firstFailure_cons, firstFailure_nil, Option.none_or, Option.or_none]
    refine failure?_bind_elim fun tangent => ?_
    refine failure?_bind_elim fun along => ?_
    refine failure?_bind_elim fun normal => ?_
    rw [← Option.bind_fun_some (normal.cross tangent).normalize?]
    exact failure?_bind_elim fun binormal => rfl

end CoilAxis

/-- Failures that a sweep comes to at one of its rings. -/
def Failure.OfRing {α : Type} : Failure α → Prop
  | .misuse (.emptySection _) => True
  | .mismatch (.ring _) _ _ => True
  | _ => False

namespace SweepPlan

/-- A plan without iterations. A blend of outlines is the first to notice. -/
def iterationFault? (p : SweepPlan α) : Option (Failure α) :=
  if p.maxIterations.toNat = 0 then
    some (.misuse (if p.profile.morphTo.isSome then .noBlendSteps else .noIterations))
  else none

/-- The first check that a plan does not pass. -/
def fault? (p : SweepPlan α) : Option (Failure α) :=
  firstFailure [p.profile.resolutionFault?, p.profile.morphFault?, p.iterationFault?,
    CoilAxis.directionFault? p.tangent p.normal]

omit [Scalar α] in
/-- The want of iterations is noticed by the blend or else by the axis, in either case ahead of the
directions. -/
theorem stepFault?_or (p : SweepPlan α) (later : Option (Failure α)) :
    (p.profile.stepFault? p.maxIterations.toNat).or
        ((if p.maxIterations.toNat = 0 then some (.misuse .noIterations) else none).or later) =
      p.iterationFault?.or later := by
  unfold Profile.stepFault? iterationFault?
  by_cases none : p.maxIterations.toNat = 0
  · cases p.profile.morphTo <;> simp [none]
  · cases p.profile.morphTo <;> simp [none]

/-- None of the checks of a plan is about a ring. -/
theorem not_ofRing_of_fault? {p : SweepPlan α} {failure : Failure α}
    (refused : p.fault? = some failure) : ¬ failure.OfRing := by
  have here := mem_of_firstFailure refused
  simp only [List.mem_cons, List.not_mem_nil, or_false] at here
  rcases here with coarse | unequal | still | lost
  · unfold Profile.resolutionFault? at coarse
    split at coarse <;> cases coarse
    exact id
  · obtain ⟨target, _, unlike⟩ := Option.bind_eq_some_iff.mp unequal.symm
    split at unlike <;> cases unlike
    exact id
  · unfold iterationFault? at still
    split at still
    · cases still
      split <;> exact id
    · cases still
  · unfold CoilAxis.directionFault? lack at lost
    split at lost <;> cases lost
    exact id

theorem failure?_axis (p : SweepPlan α) : failure? p.axis = p.fault? := by
  unfold axis
  rw [failure?_bind (failure? (CoilAxis.make p.start p.tangent p.normal (.fixed [])
    p.maxIterations.toNat))]
  · rw [Profile.failure?_build, CoilAxis.failure?_make]
    simp only [fault?, firstFailure_cons, firstFailure_nil, Option.or_none, Option.or_assoc]
    rw [stepFault?_or]
  · -- The cross-section has no part in whether there is a frame.
    intro s built
    rw [failure?_bind none (fun _ _ => rfl), Option.or_none, CoilAxis.failure?_make,
      CoilAxis.failure?_make]

/-- The axis of a plan stands at its beginning, and turns the cross-sections of the profile. -/
theorem axis_eq_ok {p : SweepPlan α} {axis : CoilAxis α} (made : p.axis = .ok axis) :
    p.profile.build p.maxIterations.toNat = .ok axis.crossSection ∧ p.maxIterations.toNat ≠ 0 ∧
      axis.maxIterations = p.maxIterations.toNat ∧ axis.iteration = 0 := by
  unfold SweepPlan.axis at made
  obtain ⟨s, built, rest⟩ := bind_eq_ok_iff.mp made
  obtain ⟨bare, framed, finished⟩ := bind_eq_ok_iff.mp rest
  cases finished
  unfold CoilAxis.make at framed
  split at framed
  case isTrue => cases framed
  case isFalse some =>
    simp only [bind_eq_ok_iff] at framed
    obtain ⟨_, _, _, _, _, _, _, _, placed⟩ := framed
    cases placed
    exact ⟨built, some, rfl, rfl⟩

/-- How many points a ring of the plan has. -/
def ringSize (p : SweepPlan α) : Nat := p.profile.outline.pointCount p.profile.resolution.toNat

theorem minRingSize_le_ringSize {p : SweepPlan α} {axis : CoilAxis α}
    (made : p.axis = .ok axis) : minRingSize ≤ p.ringSize :=
  (Profile.minRingSize_le_of_build (axis_eq_ok made).1).trans
    (p.profile.outline.resolution_le_pointCount _)

theorem ringSize_pos {p : SweepPlan α} {axis : CoilAxis α} (made : p.axis = .ok axis) :
    0 < p.ringSize :=
  Nat.lt_of_lt_of_le (by decide) (minRingSize_le_ringSize made)

/-- All rings of the axis of a plan have one size. -/
theorem length_ringsAhead {p : SweepPlan α} {axis : CoilAxis α} (made : p.axis = .ok axis)
    (count : Nat) : ∀ ring ∈ axis.ringsAhead count, ring.length = p.ringSize := by
  intro ring member
  obtain ⟨n, _, rfl⟩ := List.mem_map.mp member
  rw [CoilAxis.length_ringAt]
  exact Profile.length_pointsAt_of_build (axis_eq_ok made).1 n

theorem ringSize_of_axis {p : SweepPlan α} {axis : CoilAxis α} (made : p.axis = .ok axis) :
    axis.ringSize = p.ringSize :=
  Profile.length_pointsAt_of_build (axis_eq_ok made).1 _

/-- An axis that was made from a plan is swept to its end. -/
theorem sweep_eq_ok_of_axis {p : SweepPlan α} {axis : CoilAxis α} (made : p.axis = .ok axis) :
    axis.sweep.1 = .ok ((axis.ringsAhead axis.ringCount).foldl Mesh.addRing .empty) := by
  rw [CoilAxis.sweep_eq_ok_iff, ringSize_of_axis made]
  exact ⟨rfl, fun ring member => ⟨ringSize_pos made, length_ringsAhead made _ ring member⟩⟩

theorem mesh_eq_ok_iff {p : SweepPlan α} {m : Mesh α} :
    p.mesh = .ok m ↔ ∃ axis, p.axis = .ok axis ∧
      m = (axis.ringsAhead axis.ringCount).foldl Mesh.addRing .empty := by
  unfold mesh
  rw [bind_eq_ok_iff]
  constructor
  · rintro ⟨axis, made, swept⟩
    rw [sweep_eq_ok_of_axis made] at swept
    cases swept
    exact ⟨axis, made, rfl⟩
  · rintro ⟨axis, made, rfl⟩
    exact ⟨axis, made, sweep_eq_ok_of_axis made⟩

theorem failure?_mesh (p : SweepPlan α) : failure? p.mesh = p.fault? := by
  unfold mesh
  rw [failure?_bind none, Option.or_none, failure?_axis]
  intro axis made
  exact failure?_eq_none_iff.mpr ⟨_, sweep_eq_ok_of_axis made⟩

theorem ringCount_of_axis {p : SweepPlan α} {axis : CoilAxis α} (made : p.axis = .ok axis) :
    axis.ringCount = p.maxIterations.toNat - 1 := by
  obtain ⟨_, _, bound, start⟩ := axis_eq_ok made
  rw [CoilAxis.ringCount, bound, start, Nat.sub_zero]

/-- A plan says how large its mesh is. -/
theorem mesh_counts {p : SweepPlan α} {m : Mesh α} (swept : p.mesh = .ok m) :
    m.vertexCount = (p.maxIterations.toNat - 1) * p.ringSize ∧
      m.edgeCount = (if p.maxIterations.toNat = 1 then 0
        else p.ringSize + 4 * p.ringSize * (p.maxIterations.toNat - 2)) ∧
      m.quadCount = (p.maxIterations.toNat - 2) * p.ringSize := by
  obtain ⟨axis, made, rfl⟩ := mesh_eq_ok_iff.mp swept
  have some : p.maxIterations.toNat ≠ 0 := (axis_eq_ok made).2.1
  have alone : p.maxIterations.toNat - 1 = 0 ↔ p.maxIterations.toNat = 1 := by omega
  have counts := (CoilAxis.sweep_stacked (sweep_eq_ok_of_axis made)).counts
  rw [ringSize_of_axis made, ringCount_of_axis made, Nat.sub_sub] at counts
  rw [ringCount_of_axis made, Nat.mul_comm (p.maxIterations.toNat - 2)]
  simpa only [alone] using counts

/-- The rings of a plan have three points or more, and no edge or quad names one of them twice. -/
theorem isValid_mesh {p : SweepPlan α} {m : Mesh α} (swept : p.mesh = .ok m)
    (fits : (p.maxIterations.toNat - 1) * p.ringSize < 2 ^ 32) : m.isValid = true := by
  obtain ⟨axis, made, rfl⟩ := mesh_eq_ok_iff.mp swept
  have several : 2 ≤ p.ringSize := Nat.le_of_lt (minRingSize_le_ringSize made)
  rw [← ringCount_of_axis made, ← ringSize_of_axis made] at fits
  rw [← ringSize_of_axis made] at several
  exact (CoilAxis.sweep_banded (sweep_eq_ok_of_axis made) fits).isValid several fits

/-- A plan is carried out whenever its axis can be made, and otherwise fails as the axis does, with
the first check that it does not pass. No ring is ever refused. The mesh has the size that the
iterations and the outline say, and is valid as long as its points can be numbered. -/
theorem mesh_outcome (p : SweepPlan α) :
    ((∃ m, p.mesh = .ok m) ↔ ∃ axis, p.axis = .ok axis) ∧
      (∀ failure, p.mesh = .error failure ↔ p.axis = .error failure) ∧
      (∀ failure, p.mesh = .error failure ↔ p.fault? = some failure) ∧
      (∀ failure, p.mesh = .error failure → ¬ failure.OfRing) ∧
      ∀ m, p.mesh = .ok m →
        m.vertexCount = (p.maxIterations.toNat - 1) * p.ringSize ∧
          m.quadCount = (p.maxIterations.toNat - 2) * p.ringSize ∧
          m.edgeCount = (if p.maxIterations.toNat = 1 then 0
            else p.ringSize + 4 * p.ringSize * (p.maxIterations.toNat - 2)) ∧
          ((p.maxIterations.toNat - 1) * p.ringSize < 2 ^ 32 → m.isValid = true) := by
  have same : failure? p.mesh = failure? p.axis := by rw [failure?_mesh, failure?_axis]
  refine ⟨?_, ?_, ?_, ?_, ?_⟩
  · rw [← failure?_eq_none_iff, ← failure?_eq_none_iff, same]
  · intro failure
    rw [← failure?_eq_some_iff, ← failure?_eq_some_iff, same]
  · intro failure
    rw [← failure?_eq_some_iff, failure?_mesh]
  · intro failure failed
    rw [← failure?_eq_some_iff, failure?_mesh] at failed
    exact not_ofRing_of_fault? failed
  · intro m swept
    obtain ⟨vertices, edges, quads⟩ := mesh_counts swept
    exact ⟨vertices, quads, edges, isValid_mesh swept⟩

/-- A circle that turns into half an oval within six iterations. -/
def opening : SweepPlan Float :=
  { standard with
    maxIterations := 6
    displacement := .perIteration 1
    profile := { outline := .circle, radius := 1, resolution := 12, morphTo := some .semiOval } }

theorem opening_mesh_outcome :
    ∃ m, opening.mesh = .ok m ∧ 5 * 13 < 2 ^ 32 ∧ m.vertexCount = 5 * 13 ∧ m.quadCount = 4 * 13 ∧
      m.edgeCount = 13 + 4 * 13 * 4 ∧ m.isValid = true := by
  have passed : opening.fault? = none := by decide +kernel
  obtain ⟨m, swept⟩ := failure?_eq_none_iff.mp ((failure?_mesh opening).trans passed)
  obtain ⟨vertices, quads, edges, valid⟩ := (mesh_outcome opening).2.2.2.2 m swept
  exact ⟨m, swept, by decide, vertices, quads, edges, valid (by decide)⟩

end SweepPlan

end Tendril
