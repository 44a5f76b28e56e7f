import Tendril.Proofs.Exact.Axis

/-!
# Rings around an exact axis

A ring lies in a plane that holds the axis: the directions in which its points are placed are the one
in which the ring leaves the axis and the one of the axis itself, and these two are of length one and
at right angles. The coordinates of a point in that plane can therefore be read off its parameters,
and its distance from the axis is one of them. A profile that is not blown up stays as far from the
ring around which it coils as it is wide.
-/

namespace Tendril

open Scalar

/-- Making a plan into an axis is one way to have an axis. -/
theorem SweepPlan.axis_built {α : Type} [Scalar α] {p : SweepPlan α} {axis : CoilAxis α}
    (made : p.axis = .ok axis) :
    ∃ s, CoilAxis.Built p.start p.tangent p.normal s p.maxIterations.toNat axis := by
  unfold SweepPlan.axis at made
  obtain ⟨s, _, rest⟩ := bind_eq_ok_iff.mp made
  obtain ⟨bare, framed, finished⟩ := bind_eq_ok_iff.mp rest
  cases finished
  have built : CoilAxis.Built p.start p.tangent p.normal s p.maxIterations.toNat bare :=
    .make framed
  exact ⟨s, built.withParams _ _ _ _⟩

namespace CoilAxis

/-- The plane through the start of an axis that its rings of iteration `n` lie in. -/
def planeAt (axis : CoilAxis ℝ) (n : Nat) : Set (Vec3 ℝ) :=
  {v | ∃ a b : ℝ, v = axis.start + (a • axis.normalAt n + b • axis.tangent)}

/-- A place is as far from an axis as from the nearest point of the line. -/
def Apart (axis : CoilAxis ℝ) (v : Vec3 ℝ) (distance : ℝ) : Prop :=
  IsLeast (Set.range fun t : ℝ => (v - (axis.start + t • axis.tangent)).length) distance

/-- Where a point of the cross-section of iteration `n` comes to lie. -/
structure Lies (axis : CoilAxis ℝ) (n : Nat) (point : Vec2 ℝ) (v : Vec3 ℝ) : Prop where
  inPlane : v ∈ axis.planeAt n
  ahead : (v - axis.start).dot axis.tangent =
    axis.displacement.valueAt n + axis.scaling.valueAt n * point.y
  apart : axis.Apart v |axis.coilingRadius.valueAt n + axis.scaling.valueAt n * point.x|

variable {axis : CoilAxis ℝ}

/-- What a built axis keeps of the frame that it was made with is that it stands at right angles. -/
theorem Built.orthonormal {start tangent normal : Vec3 ℝ} {s : Section ℝ} {maxIterations : Nat}
    (built : Built start tangent normal s maxIterations axis) : axis.Orthonormal := by
  obtain ⟨bare, made, same⟩ := built.framed
  have orthonormal := orthonormal_of_make made
  rw [same]
  exact { orthonormal with }

/-- The coordinates of a place within the plane of a ring. -/
theorem Orthonormal.apart (orthonormal : axis.Orthonormal) (n : Nat) (a b : ℝ) :
    axis.Apart (axis.start + (a • axis.normalAt n + b • axis.tangent)) |a| := by
  obtain ⟨_, triad⟩ := orthonormal.triadAt n
  have length : ∀ t : ℝ, (axis.start + (a • axis.normalAt n + b • axis.tangent) -
      (axis.start + t • axis.tangent)).length = √(a ^ 2 + (b - t) ^ 2) := by
    intro t
    rw [← triad.length_combine]
    congr 1
    ext <;> simp only [Vec3.add_x, Vec3.add_y, Vec3.add_z, Vec3.sub_x, Vec3.sub_y, Vec3.sub_z,
      Vec3.smul_x, Vec3.smul_y, Vec3.smul_z] <;> ring
  simp only [Apart, length]
  constructor
  · refine ⟨b, ?_⟩
    show √(a ^ 2 + (b - b) ^ 2) = |a|
    rw [sub_self, zero_pow two_ne_zero, add_zero, Real.sqrt_sq_eq_abs]
  · rintro _ ⟨t, rfl⟩
    exact Real.abs_le_sqrt (le_add_of_nonneg_right (sq_nonneg _))

theorem Orthonormal.ahead (orthonormal : axis.Orthonormal) (n : Nat) (a b : ℝ) :
    (axis.start + (a • axis.normalAt n + b • axis.tangent) - axis.start).dot axis.tangent = b := by
  obtain ⟨_, triad⟩ := orthonormal.triadAt n
  have parted : (axis.start + (a • axis.normalAt n + b • axis.tangent) - axis.start).dot
      axis.tangent = a * (axis.normalAt n).dot axis.tangent + b * axis.tangent.dot axis.tangent := by
    simp only [Vec3.dot, Vec3.add_x, Vec3.add_y, Vec3.add_z, Vec3.sub_x, Vec3.sub_y, Vec3.sub_z,
      Vec3.smul_x, Vec3.smul_y, Vec3.smul_z]
    ring
  rw [parted, triad.square, triad.unitSecond, mul_zero, mul_one, zero_add]

theorem place_eq (axis : CoilAxis ℝ) (n : Nat) (point : Vec2 ℝ) :
    place (axis.centreAt n) (axis.normalAt n) axis.tangent (axis.scaling.valueAt n) point =
      axis.start +
        ((axis.coilingRadius.valueAt n + axis.scaling.valueAt n * point.x) • axis.normalAt n +
          (axis.displacement.valueAt n + axis.scaling.valueAt n * point.y) • axis.tangent) := by
  show axis.start + axis.displacement.valueAt n • axis.tangent +
      axis.coilingRadius.valueAt n • axis.normalAt n +
      (axis.scaling.valueAt n * point.x) • axis.normalAt n +
      (axis.scaling.valueAt n * point.y) • axis.tangent = _
  ext <;> simp only [Vec3.add_x, Vec3.add_y, Vec3.add_z, Vec3.smul_x, Vec3.smul_y, Vec3.smul_z] <;>
    ring

/-- Where a frame stands at right angles, every point lies where its parameters say. -/
theorem Orthonormal.lies (orthonormal : axis.Orthonormal) (n : Nat) (point : Vec2 ℝ) :
    axis.Lies n point
      (place (axis.centreAt n) (axis.normalAt n) axis.tangent (axis.scaling.valueAt n) point) := by
  rw [place_eq]
  exact ⟨⟨_, _, rfl⟩, orthonormal.ahead n _ _, orthonormal.apart n _ _⟩

/-- A point of a sweep is placed for a point of the cross-section of one of its iterations. -/
theorem lies_of_mem_sweep {m : Mesh ℝ} (orthonormal : axis.Orthonormal)
    (swept : axis.sweep.1 = .ok m) {v : Vec3 ℝ} (member : v ∈ m.vertices) :
    ∃ n, axis.iteration < n ∧ n < axis.maxIterations ∧
      ∃ point ∈ axis.crossSection.pointsAt n, axis.Lies n point v := by
  obtain ⟨rfl, _⟩ := sweep_eq_ok_iff.mp swept
  rw [← Array.mem_toList_iff, Mesh.foldl_addRing_vertices] at member
  have among : v ∈ (axis.ringsAhead axis.ringCount).flatten := member
  obtain ⟨ring, held, inRing⟩ := List.mem_flatten.mp among
  obtain ⟨n, within, rfl⟩ := List.mem_map.mp held
  obtain ⟨point, drawn, rfl⟩ := List.mem_map.mp inRing
  have bounds := List.mem_range'_1.mp within
  unfold ringCount at bounds
  exact ⟨n, by omega, by omega, point, drawn, orthonormal.lies n point⟩

/-- What does not grow stays within a width of the radius. -/
theorem abs_add_mul_mem {r w scale x : ℝ} (wide : w ≤ r) (tame : |scale| ≤ 1) (narrow : |x| ≤ w) :
    r - w ≤ |r + scale * x| ∧ |r + scale * x| ≤ r + w := by
  have within : |scale * x| ≤ w := by
    rw [abs_mul]
    exact (mul_le_of_le_one_left (abs_nonneg x) tame).trans narrow
  obtain ⟨low, high⟩ := abs_le.mp within
  rw [abs_of_nonneg (by linarith)]
  constructor <;> linarith

/-- However an axis came about, a sweep that gets through places each point of its cross-sections in
the plane of its ring, as far along the axis and as far from it as displacement, radius and scale
say. Where the radius stays the same and the scale does not exceed one, no point is farther from the
radius than the profile is wide. -/
theorem sweep_around {start tangent normal : Vec3 ℝ} {s : Section ℝ} {maxIterations : Nat}
    {m : Mesh ℝ} (built : Built start tangent normal s maxIterations axis)
    (swept : axis.sweep.1 = .ok m) :
    m.vertices.size = axis.ringCount * axis.ringSize ∧
      (∀ k < axis.ringCount, ∀ i < axis.ringSize, ∃ point v,
        (axis.crossSection.pointsAt (axis.iteration + 1 + k))[i]? = some point ∧
          m.vertices[k * axis.ringSize + i]? = some v ∧
          axis.Lies (axis.iteration + 1 + k) point v) ∧
      ∀ r w : ℝ, w ≤ r →
        (∀ n, axis.iteration < n → n < axis.maxIterations →
          axis.coilingRadius.valueAt n = r ∧ |axis.scaling.valueAt n| ≤ 1 ∧
            ∀ point ∈ axis.crossSection.pointsAt n, |point.x| ≤ w) →
        ∀ v ∈ m.vertices, ∃ distance, axis.Apart v distance ∧
          r - w ≤ distance ∧ distance ≤ r + w := by
  have orthonormal := built.orthonormal
  refine ⟨vertexCount_of_sweep swept, ?_, ?_⟩
  · intro k behind i inside
    have here : i < (axis.crossSection.pointsAt (axis.iteration + 1 + k)).length := by
      rwa [(length_pointsAt_of_sweep swept behind).2]
    refine ⟨_, _, List.getElem?_eq_getElem here, ?_, orthonormal.lies _ _⟩
    rw [sweep_vertex swept behind inside, ringAt, List.getElem?_map, List.getElem?_eq_getElem here]
    rfl
  · intro r w wide steady v member
    obtain ⟨n, behind, inside, point, drawn, lies⟩ := lies_of_mem_sweep orthonormal swept member
    obtain ⟨radius, tame, narrow⟩ := steady n behind inside
    have apart := lies.apart
    rw [radius] at apart
    exact ⟨_, apart, abs_add_mul_mem wide tame (narrow point drawn)⟩

/-- A thin wire, coiled around an axis an eighth of a turn a ring. -/
noncomputable def wire : SweepPlan ℝ :=
  { SweepPlan.standard with
    maxIterations := 9
    coilingRate := .perIteration (pi / ofCount 4)
    coilingRadius := .constant (ofCount 10)
    profile := { outline := .circle, radius := one / two, resolution := 6, morphTo := none } }

theorem wire_axis : ∃ axis, wire.axis = .ok axis ∧
    axis.crossSection = .fixed (Outline.circlePoints (one / two) 6) ∧
    axis.coilingRadius = .constant (ofCount 10) ∧ axis.scaling = .constant one := by
  have apart : ¬ Degenerate (.unitZ : Vec3 ℝ) .unitX := by
    rintro (short | short | ⟨k, along⟩)
    · simp [Vec3.unitZ, Vec3.origin] at short
    · simp [Vec3.unitX, Vec3.origin] at short
    · simpa [Vec3.unitX, Vec3.unitZ] using congrArg Vec3.x along
  obtain ⟨bare, made, circle⟩ : ∃ bare : CoilAxis ℝ,
      make .origin .unitZ .unitX (.fixed (Outline.circlePoints (one / two) 6)) 9 = .ok bare ∧
        bare.crossSection = .fixed (Outline.circlePoints (one / two) 6) :=
    ⟨_, make_eq_ok_iff_apart.mpr ⟨by decide, apart, rfl⟩, rfl⟩
  refine ⟨{ bare with
    displacement := wire.displacement.param
    coilingRate := wire.coilingRate.param
    coilingRadius := wire.coilingRadius.param
    scaling := wire.scaling.param }, ?_, circle, rfl, rfl⟩
  show (do
    let axis ← make .origin .unitZ .unitX (.fixed (Outline.circlePoints (one / two) 6)) 9
    return { axis with
      displacement := wire.displacement.param
      coilingRate := wire.coilingRate.param
      coilingRadius := wire.coilingRadius.param
      scaling := wire.scaling.param }) = _
  rw [made]
  rfl

theorem wire_sweep_around : ∃ axis m s,
    (Built wire.start wire.tangent wire.normal s 9 axis ∧ axis.sweep.1 = .ok m) ∧
      ∀ v ∈ m.vertices, ∃ distance, axis.Apart v distance ∧
        10 - 1 / 2 ≤ distance ∧ distance ≤ 10 + 1 / 2 := by
  obtain ⟨axis, made, circle, radius, scale⟩ := wire_axis
  obtain ⟨s, built⟩ := SweepPlan.axis_built made
  have swept := SweepPlan.sweep_eq_ok_of_axis made
  obtain ⟨_, _, within⟩ := sweep_around built swept
  refine ⟨axis, _, s, ⟨built, swept⟩, within 10 (1 / 2) (by norm_num) ?_⟩
  intro n _ _
  rw [radius, scale, circle]
  refine ⟨Nat.cast_ofNat, ?_, ?_⟩
  · show |(one : ℝ)| ≤ 1
    rw [one_real, abs_one]
  · intro point drawn
    obtain ⟨i, _, rfl⟩ := List.mem_map.mp drawn
    have half : (one / two : ℝ) = 1 / 2 := congrArg₂ (· / ·) one_real Nat.cast_ofNat
    show |one / two * Real.cos _| ≤ 1 / 2
    rw [half, abs_mul, abs_of_pos (by norm_num : (0 : ℝ) < 1 / 2)]
    exact mul_le_of_le_one_right (by norm_num) (Real.abs_cos_le_one _)

end CoilAxis

end Tendril
