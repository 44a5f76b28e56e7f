import Tendril.Proofs.Failure
import Tendril.Proofs.Sweep.Band
import Tendril.Proofs.Sweep.Outcome

/-!
# The mesh of a sweep

A sweep that gets through has placed the rings behind its current iteration, all of one size, and
nothing else: its mesh is given by the axis in closed form, vertex by vertex, edge by edge and quad
by quad, wherever the axis stood when the sweep began.
-/

namespace Tendril

open Scalar

variable {α : Type} [Scalar α]

namespace CoilAxis

theorem ringAt_mem_ringsAhead {axis : CoilAxis α} {k count : Nat} (behind : k < count) :
    axis.ringAt (axis.iteration + 1 + k) ∈ axis.ringsAhead count :=
  List.mem_map_of_mem (List.mem_range'_1.mpr ⟨by omega, by omega⟩)

/-- A sweep that gets through adds its rings to the empty mesh, and all of them are as large as the
first. -/
theorem sweep_eq_ok_iff {axis : CoilAxis α} {m : Mesh α} :
    axis.sweep.1 = .ok m ↔
      m = (axis.ringsAhead axis.ringCount).foldl Mesh.addRing .empty ∧
        ∀ ring ∈ axis.ringsAhead axis.ringCount,
          0 < axis.ringSize ∧ ring.length = axis.ringSize := by
  rw [← misfits_eq_empty_iff_rings]
  rcases Set.eq_empty_or_nonempty axis.misfits with none | some
  · rw [sweep_of_fit none]
    simp [none, eq_comm]
  · rw [sweep_of_isLeast (isLeast_csInf some)]
    simp [some.ne_empty]

/-- A sweep stacks its rings, however many points they have together. -/
theorem sweep_stacked {axis : CoilAxis α} {m : Mesh α} (swept : axis.sweep.1 = .ok m) :
    Stacked axis.ringSize axis.ringCount m := by
  obtain ⟨rfl, sized⟩ := sweep_eq_ok_iff.mp swept
  have count := axis.length_ringsAhead axis.ringCount
  rcases Nat.eq_zero_or_pos axis.ringCount with none | some
  · rw [none]
    exact Stacked.empty axis.ringSize
  · have points := (sized _ (ringAt_mem_ringsAhead some)).1
    have stacked := (Stacked.empty axis.ringSize).foldl_addRing points
      (axis.ringsAhead axis.ringCount) fun ring member => (sized ring member).2
    rwa [Nat.zero_add, count] at stacked

/-- A sweep has as many points as its rings have together, however many that are. -/
theorem vertexCount_of_sweep {axis : CoilAxis α} {m : Mesh α} (swept : axis.sweep.1 = .ok m) :
    m.vertexCount = axis.ringCount * axis.ringSize := (sweep_stacked swept).counts.1

/-- The rings of a sweep that gets through have the size of the first. -/
theorem length_pointsAt_of_sweep {axis : CoilAxis α} {m : Mesh α} (swept : axis.sweep.1 = .ok m)
    {k : Nat} (behind : k < axis.ringCount) :
    0 < axis.ringSize ∧
      (axis.crossSection.pointsAt (axis.iteration + 1 + k)).length = axis.ringSize := by
  rw [← length_ringAt]
  exact (sweep_eq_ok_iff.mp swept).2 _ (ringAt_mem_ringsAhead behind)

theorem sweep_banded {axis : CoilAxis α} {m : Mesh α} (swept : axis.sweep.1 = .ok m)
    (fits : axis.ringCount * axis.ringSize < 2 ^ 32) : Banded axis.ringSize axis.ringCount m :=
  (sweep_stacked swept).banded fits

/-- Where a sweep puts the points of its rings. -/
theorem sweep_vertex {axis : CoilAxis α} {m : Mesh α} (swept : axis.sweep.1 = .ok m) {k i : Nat}
    (behind : k < axis.ringCount) (inside : i < axis.ringSize) :
    m.vertices[k * axis.ringSize + i]? = (axis.ringAt (axis.iteration + 1 + k))[i]? := by
  obtain ⟨rfl, sized⟩ := sweep_eq_ok_iff.mp swept
  have rows : ∀ row ∈ axis.ringsAhead axis.ringCount, row.length = axis.ringSize :=
    fun row member => (sized row member).2
  have ring : (axis.ringsAhead axis.ringCount)[k]? =
      some (axis.ringAt (axis.iteration + 1 + k)) := by
    rw [ringsAhead, List.getElem?_map, List.getElem?_range' behind, Option.map_some, Nat.one_mul]
  rw [← Array.getElem?_toList, Mesh.foldl_addRing_vertices]
  show (axis.ringsAhead axis.ringCount).flatten[k * axis.ringSize + i]? = _
  rw [getElem?_flatten_of_length rows k inside, ring]
  rfl

/-- The mesh of a sweep, in closed form. -/
theorem sweep_mesh {axis : CoilAxis α} {m : Mesh α} (swept : axis.sweep.1 = .ok m)
    (fits : axis.ringCount * axis.ringSize < 2 ^ 32) :
    m.vertices.size = axis.ringCount * axis.ringSize ∧
      (∀ k < axis.ringCount, 0 < axis.ringSize ∧
        (axis.crossSection.pointsAt (axis.iteration + 1 + k)).length = axis.ringSize) ∧
      (∀ k < axis.ringCount, ∀ i < axis.ringSize,
        let n := axis.iteration + 1 + k
        ∃ point, (axis.crossSection.pointsAt n)[i]? = some point ∧
          m.vertices[k * axis.ringSize + i]? = some
            (axis.start + axis.displacement.valueAt n • axis.tangent
              + axis.coilingRadius.valueAt n • axis.normalAt n
              + (axis.scaling.valueAt n • point).x • axis.normalAt n
              + (axis.scaling.valueAt n • point).y • axis.tangent)) ∧
      m.edges.size =
        (if axis.ringCount = 0 then 0
        else axis.ringSize + 4 * axis.ringSize * (axis.ringCount - 1)) ∧
      m.edges.toList.map Edge.numbers =
        (List.range axis.ringCount).flatMap (Band.edges axis.ringSize) ∧
      m.quads.size = axis.ringSize * (axis.ringCount - 1) ∧
      m.quads.toList.map Quad.numbers =
        (List.range axis.ringCount).flatMap (Band.quads axis.ringSize) := by
  have banded := sweep_banded swept fits
  obtain ⟨_, edges, quads⟩ := (sweep_stacked swept).counts
  have sized : ∀ k < axis.ringCount, 0 < axis.ringSize ∧
      (axis.crossSection.pointsAt (axis.iteration + 1 + k)).length = axis.ringSize :=
    fun k behind => length_pointsAt_of_sweep swept behind
  refine ⟨banded.vertices, sized, ?placed, edges, banded.edges, quads, banded.quads⟩
  case placed =>
    intro k behind i inside n
    have here : i < (axis.crossSection.pointsAt (axis.iteration + 1 + k)).length := by
      rwa [(sized k behind).2]
    refine ⟨_, List.getElem?_eq_getElem here, ?_⟩
    rw [sweep_vertex swept behind inside, ringAt, List.getElem?_map, List.getElem?_eq_getElem here]
    rfl

/-- An axis is made of the directions that its stages come to, one after the other. -/
theorem make_eq_ok_iff {start tangent normal : Vec3 α} {s : Section α} {maxIterations : Nat}
    {axis : CoilAxis α} :
    make start tangent normal s maxIterations = .ok axis ↔
      maxIterations ≠ 0 ∧ ∃ ahead along out aside, tangent.direction = .ok ahead ∧
        normal.projection ahead = .ok along ∧ (normal - along).direction = .ok out ∧
        (out.cross ahead).direction = .ok aside ∧
        axis = ⟨start, ahead, out, aside, .constant zero, .constant zero, .constant zero,
          .constant one, s, maxIterations, 0⟩ := by
  unfold make
  by_cases none : maxIterations = 0
  · simp [none]
  · rw [if_neg none]
    simp only [bind_eq_ok_iff]
    constructor
    · rintro ⟨ahead, first, along, second, out, third, aside, fourth, finished⟩
      cases finished
      exact ⟨none, ahead, along, out, aside, first, second, third, fourth, rfl⟩
    · rintro ⟨_, ahead, along, out, aside, first, second, third, fourth, rfl⟩
      exact ⟨ahead, first, along, second, out, third, aside, fourth, rfl⟩

/-- An axis that drifts along the way, stepped on by hand until two rings of four are left. -/
def drifter : Except (Failure Float) (CoilAxis Float) := do
  let square : Section Float := .varying fun _ => [⟨1, 1⟩, ⟨-1, 1⟩, ⟨-1, -1⟩, ⟨1, -1⟩]
  let axis ← make .origin .unitZ .unitX square 5
  let drifting := { axis with
    displacement := .varying ofCount
    coilingRadius := .constant 1
    scaling := .constant 2 }
  return drifting.advance.advance

theorem drifter_made : ∃ axis, drifter = .ok axis ∧ axis.maxIterations = 5 ∧ axis.ringCount = 2 ∧
    ∀ n, (axis.crossSection.pointsAt n).length = 4 := by
  obtain ⟨axis, made⟩ : ∃ axis, drifter = .ok axis := by
    rw [← failure?_eq_none_iff]
    decide +kernel
  obtain ⟨bare, begun, finished⟩ := bind_eq_ok_iff.mp made
  obtain ⟨_, _, _, _, _, _, _, _, _, rfl⟩ := make_eq_ok_iff.mp begun
  cases finished
  exact ⟨_, made, rfl, rfl, fun _ => rfl⟩

theorem drifter_sweep_mesh : ∃ axis m, drifter = .ok axis ∧ axis.sweep.1 = .ok m ∧
    axis.ringCount * axis.ringSize < 2 ^ 32 ∧ m.vertices.size = 2 * 4 ∧
    m.edges.size = 4 + 4 * 4 * 1 ∧ m.quads.size = 4 * 1 ∧ m.quads.toList.map Quad.numbers =
      [[0, 1, 5, 4], [1, 2, 6, 5], [2, 3, 7, 6], [3, 0, 4, 7]] := by
  obtain ⟨axis, made, _, rings, even⟩ := drifter_made
  obtain ⟨m, swept⟩ := exists_sweep (by decide) even
  have size : axis.ringSize = 4 := even _
  have fits : axis.ringCount * axis.ringSize < 2 ^ 32 := by
    rw [rings, size]
    decide
  obtain ⟨vertices, _, _, edges, _, count, quads⟩ := sweep_mesh swept fits
  rw [rings, size] at vertices edges count quads
  exact ⟨axis, m, made, swept, fits, vertices, edges, count, quads⟩

end CoilAxis

end Tendril
