import Tendril.Proofs.Failure
import Tendril.Proofs.Sweep.Tube
import Tendril.Proofs.Sweep.Valid

/-!
# Rings of one point

A sweep refuses cross-sections without points, and takes all others. Where a ring has one point the
side that closes it leads from the point to itself, and the mesh is not valid; two points are enough
for a valid one. So the sweeps that end in an invalid mesh are those of single points.
-/

namespace Tendril

variable {α : Type}

/-- The side of a ring of one point has that point for both of its ends. -/
theorem Banded.isValid_of_point {rings : Nat} {m : Mesh α} (banded : Banded 1 rings m)
    (some : 0 < rings) (fits : rings * 1 < 2 ^ 32) : m.isValid = false := by
  rw [Bool.eq_false_iff]
  intro valid
  have count : m.vertexCount = rings * 1 := banded.vertices
  have edges := ((Mesh.isValid_iff_names (by rw [count]; exact fits)).mp valid).1
  have loop : [0, 0] ∈ m.edges.toList.map Edge.numbers := by
    rw [banded.edges, List.mem_flatMap]
    exact ⟨0, List.mem_range.mpr some, List.mem_singleton_self _⟩
  exact absurd (edges _ loop).distinct (by simp)

namespace CoilAxis

variable [Scalar α]

/-- A sweep that gets through makes a valid mesh unless it goes through single points, whatever the
cross-sections and the parameters are and wherever the axis stood. -/
theorem sweep_isValid_iff {axis : CoilAxis α} {m : Mesh α} (swept : axis.sweep.1 = .ok m)
    (few : m.vertexCount < 2 ^ 32) :
    m.isValid = true ↔ ∀ n, axis.iteration < n → n < axis.maxIterations →
      (axis.crossSection.pointsAt n).length ≠ 1 := by
  have fits : axis.ringCount * axis.ringSize < 2 ^ 32 := by rwa [← vertexCount_of_sweep swept]
  have banded := sweep_banded swept fits
  have rings : axis.ringCount = axis.maxIterations - 1 - axis.iteration := rfl
  -- The iteration of ring `k` is `k + 1` iterations ahead.
  have ahead : ∀ n, axis.iteration < n → n < axis.maxIterations →
      ∃ k < axis.ringCount, n = axis.iteration + 1 + k := fun n behind inside =>
    ⟨n - axis.iteration - 1, by omega, by omega⟩
  constructor
  · intro valid n behind inside single
    obtain ⟨k, within, rfl⟩ := ahead n behind inside
    have size := (length_pointsAt_of_sweep swept within).2
    rw [single] at size
    rw [← size] at banded fits
    rw [banded.isValid_of_point (by omega) fits] at valid
    cases valid
  · intro several
    rcases Nat.eq_zero_or_pos axis.ringCount with none | some
    · rw [Mesh.isValid_iff_names few, banded.edges, banded.quads, none]
      simp
    · obtain ⟨points, size⟩ := length_pointsAt_of_sweep swept some
      have first := several (axis.iteration + 1 + 0) (by omega) (by omega)
      rw [size] at first
      exact banded.isValid (by omega) fits

theorem drifter_sweep_isValid : ∃ axis m, drifter = .ok axis ∧ axis.sweep.1 = .ok m ∧
    m.vertexCount < 2 ^ 32 ∧ m.isValid = true := by
  obtain ⟨axis, made, _, rings, even⟩ := drifter_made
  obtain ⟨m, swept⟩ := exists_sweep (by decide) even
  have few : m.vertexCount < 2 ^ 32 := by
    rw [vertexCount_of_sweep swept, rings, ringSize, even]
    decide
  refine ⟨axis, m, made, swept, few, (sweep_isValid_iff swept few).mpr fun n _ _ => ?_⟩
  rw [even]
  decide

/-- A single point that is swept along the third axis, in two rings. -/
def thread : Except (Failure Float) (Mesh Float) := do
  let axis ← make .origin .unitZ .unitX (.fixed [⟨1, 0⟩]) 3
  axis.sweep.1

theorem thread_sweep_invalid :
    ∃ (axis : CoilAxis Float) (m : Mesh Float),
      make .origin .unitZ .unitX (.fixed [⟨1, 0⟩]) 3 = .ok axis ∧ axis.sweep.1 = .ok m ∧
        m.vertexCount < 2 ^ 32 ∧ m.edges.toList = [⟨0, 0⟩, ⟨1, 1⟩, ⟨0, 0⟩, ⟨0, 1⟩, ⟨0, 1⟩] ∧
        m.quads.toList = [⟨0, 0, 1, 1⟩] ∧ m.isValid = false := by
  have swept : thread.toOption.map
      (fun m => (m.vertexCount, m.edges.toList, m.quads.toList, m.isValid)) =
        some (2, [⟨0, 0⟩, ⟨1, 1⟩, ⟨0, 0⟩, ⟨0, 1⟩, ⟨0, 1⟩], [⟨0, 0, 1, 1⟩], false) := by
    decide +kernel
  cases result : thread with
  | error failure =>
      rw [result] at swept
      cases swept
  | ok m =>
      obtain ⟨axis, made, drawn⟩ := bind_eq_ok_iff.mp result
      simp only [result, Except.toOption, Option.map_some, Option.some.injEq,
        Prod.mk.injEq] at swept
      obtain ⟨points, edges, quads, invalid⟩ := swept
      exact ⟨axis, m, made, drawn, by omega, edges, quads, invalid⟩

end CoilAxis

end Tendril
