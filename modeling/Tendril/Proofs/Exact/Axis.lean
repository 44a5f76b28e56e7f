import Tendril.Proofs.Exact.Skewed
import Tendril.Proofs.Plan.Sweep
import Tendril.Proofs.Sweep.Built

/-!
# Exact axes

The direction of an axis and one beside it make a frame unless they lie along one line: what is left
of the second across the first then has a direction, and the third axis, across two of length one at
right angles, needs none to be found. So an axis is refused for its iterations, or else for its
directions, and every axis there is has a frame at right angles. Its rings leave it in directions
that turn within the plane across the axis, whatever the rate.
-/

namespace Tendril

open Scalar

namespace Vec3

/-- The vector lies along another one, in its direction or in the opposite one. -/
def Along (a b : Vec3 ℝ) : Prop := ∃ k : ℝ, a = k • b

/-- The part of a vector that lies across another one. -/
noncomputable def across (a b : Vec3 ℝ) : Vec3 ℝ := a - (a.dot b / b.dot b) • b

theorem across_dot (a : Vec3 ℝ) {b : Vec3 ℝ} (long : b ≠ origin) : (a.across b).dot b = 0 := by
  have some : b.dot b ≠ 0 := dot_self_eq_zero_iff.not.mpr long
  have parted : (a.across b).dot b = a.dot b - a.dot b / b.dot b * b.dot b := by
    simp only [across, dot, sub_x, sub_y, sub_z, smul_x, smul_y, smul_z]
    ring
  rw [parted, div_mul_cancel₀ _ some, sub_self]

/-- Nothing of a vector lies across another one when it lies along it, and only then. -/
theorem across_eq_origin_iff (a : Vec3 ℝ) {b : Vec3 ℝ} (long : b ≠ origin) :
    a.across b = origin ↔ a.Along b := by
  have some : b.dot b ≠ 0 := dot_self_eq_zero_iff.not.mpr long
  constructor
  · intro none
    refine ⟨a.dot b / b.dot b, ?_⟩
    ext
    · exact sub_eq_zero.mp (by simpa [across, origin] using congrArg x none)
    · exact sub_eq_zero.mp (by simpa [across, origin] using congrArg y none)
    · exact sub_eq_zero.mp (by simpa [across, origin] using congrArg z none)
  · rintro ⟨k, rfl⟩
    have share : (k • b).dot b / b.dot b = k := by
      have scaled : (k • b).dot b = k * b.dot b := by
        simp only [dot, smul_x, smul_y, smul_z]
        ring
      rw [scaled, mul_div_cancel_right₀ _ some]
    rw [across, share]
    ext <;> simp [origin]

/-- How long the other vector is has no part in what lies across it. -/
theorem across_smul (a b : Vec3 ℝ) {k : ℝ} (some : k ≠ 0) : a.across (k • b) = a.across b := by
  have share : a.dot (k • b) / (k • b).dot (k • b) * k = a.dot b / b.dot b := by
    have scaled : a.dot (k • b) = k * a.dot b := by
      simp only [dot, smul_x, smul_y, smul_z]
      ring
    rw [scaled, dot_smul_smul]
    field_simp
  rw [across, across, ← share]
  ext <;> simp only [sub_x, sub_y, sub_z, smul_x, smul_y, smul_z] <;> ring

theorem projection_of_unit (a : Vec3 ℝ) {b : Vec3 ℝ} (unit : b.dot b = 1) :
    a.projection b = .ok (a.dot b • b) := by
  have same := direction_of_unit unit
  unfold direction at same
  unfold projection projectOn?
  cases found : b.normalize? with
  | none =>
      rw [found] at same
      cases same
  | some direction =>
      rw [found] at same
      cases same
      rfl

theorem sub_projection_of_unit (a : Vec3 ℝ) {b : Vec3 ℝ} (unit : b.dot b = 1) :
    a - a.dot b • b = a.across b := by
  rw [across, unit, div_one]

theorem inv_length_pos {a : Vec3 ℝ} (long : a ≠ origin) : 0 < a.length⁻¹ :=
  inv_pos.mpr (lt_of_le_of_ne (Real.sqrt_nonneg _) (Ne.symm (length_eq_zero_iff.not.mpr long)))

end Vec3

namespace CoilAxis

/-! ## Frames at right angles -/

/-- Three axes of length one at right angles, the one aside across the normal and the tangent. -/
structure Orthonormal (axis : CoilAxis ℝ) : Prop where
  length_tangent : axis.tangent.length = 1
  length_normal : axis.normal.length = 1
  length_binormal : axis.binormal.length = 1
  tangent_normal : axis.tangent.dot axis.normal = 0
  tangent_binormal : axis.tangent.dot axis.binormal = 0
  normal_binormal : axis.normal.dot axis.binormal = 0
  across : axis.binormal = axis.normal.cross axis.tangent

variable {axis : CoilAxis ℝ}

theorem orthonormal_iff_triad :
    axis.Orthonormal ↔ Triad axis.normal axis.tangent axis.binormal := by
  constructor
  · intro o
    exact ⟨Vec3.length_eq_one_iff.mp o.length_normal, Vec3.length_eq_one_iff.mp o.length_tangent,
      (Vec3.dot_comm _ _).trans o.tangent_normal, o.across⟩
  · intro triad
    refine ⟨?_, ?_, ?_, ?_, triad.cycle.square, ?_, triad.across⟩
    · exact Vec3.length_eq_one_iff.mpr triad.unitSecond
    · exact Vec3.length_eq_one_iff.mpr triad.unitFirst
    · exact Vec3.length_eq_one_iff.mpr triad.unitThird
    · exact (Vec3.dot_comm _ _).trans triad.square
    · exact (Vec3.dot_comm _ _).trans triad.cycle.cycle.square

/-- The direction in which a ring leaves the axis has length one and stays across the axis. -/
theorem Orthonormal.triadAt (orthonormal : axis.Orthonormal) (n : Nat) :
    ∃ aside, Triad (axis.normalAt n) axis.tangent aside := by
  have circle : cos (axis.coilingRate.valueAt n) ^ 2 + sin (axis.coilingRate.valueAt n) ^ 2 = 1 :=
    Real.cos_sq_add_sin_sq _
  have triad := orthonormal_iff_triad.mp orthonormal
  -- The axis aside comes before the normal, so the normal turns the other way.
  exact ⟨_, (triad.cycle.cycle.turnBack circle).cycle⟩

/-! ## Making an axis -/

/-- Directions from which no frame can be had. -/
def Degenerate (tangent normal : Vec3 ℝ) : Prop :=
  tangent = .origin ∨ normal = .origin ∨ normal.Along tangent

variable {start tangent normal : Vec3 ℝ} {s : Section ℝ} {maxIterations : Nat}

/-- Directions are degenerate when nothing of the second lies across the first. -/
theorem degenerate_iff (ahead : tangent ≠ .origin) :
    Degenerate tangent normal ↔ normal.across tangent = .origin := by
  rw [Vec3.across_eq_origin_iff normal ahead]
  constructor
  · rintro (short | rfl | along)
    · exact absurd short ahead
    · exact ⟨0, by ext <;> simp [Vec3.origin]⟩
    · exact along
  · exact fun along => .inr (.inr along)

/-- What is left of the second direction across the first one and the first one itself, both of
length one, are at right angles. -/
theorem triad_of_not_degenerate (apart : ¬ Degenerate tangent normal) :
    Triad ((normal.across tangent).length⁻¹ • normal.across tangent) (tangent.length⁻¹ • tangent)
      (((normal.across tangent).length⁻¹ • normal.across tangent).cross
        (tangent.length⁻¹ • tangent)) := by
  have ahead : tangent ≠ .origin := fun short => apart (.inl short)
  have beside : normal.across tangent ≠ .origin := (degenerate_iff ahead).not.mp apart
  refine ⟨Vec3.dot_self_direction beside, Vec3.dot_self_direction ahead, ?_, rfl⟩
  rw [Vec3.dot_smul_smul, Vec3.across_dot _ ahead, mul_zero]

/-- Directions that are not degenerate make an axis, and no others do. -/
theorem make_eq_ok_iff_apart : make start tangent normal s maxIterations = .ok axis ↔
    maxIterations ≠ 0 ∧ ¬ Degenerate tangent normal ∧
      axis = ⟨start, tangent.length⁻¹ • tangent,
        (normal.across tangent).length⁻¹ • normal.across tangent,
        ((normal.across tangent).length⁻¹ • normal.across tangent).cross
          (tangent.length⁻¹ • tangent),
        .constant zero, .constant zero, .constant zero, .constant one, s, maxIterations, 0⟩ := by
  rw [make_eq_ok_iff]
  refine and_congr_right fun _ => ?_
  -- The part along the first direction is taken of the one of length one.
  have left : ∀ {ahead}, tangent.direction = .ok ahead → ∃ along,
      normal.projection ahead = .ok along ∧ normal - along = normal.across tangent := by
    intro ahead first
    obtain ⟨long, rfl⟩ := Vec3.direction_eq_ok_iff.mp first
    have unit := Vec3.dot_self_direction long
    refine ⟨_, Vec3.projection_of_unit _ unit, ?_⟩
    rw [Vec3.sub_projection_of_unit _ unit, Vec3.across_smul _ _ (inv_length_ne_zero long)]
  constructor
  · rintro ⟨ahead, along, out, aside, first, second, third, fourth, rfl⟩
    obtain ⟨along', second', beside⟩ := left first
    cases second.symm.trans second'
    rw [beside] at third
    obtain ⟨long, rfl⟩ := Vec3.direction_eq_ok_iff.mp first
    obtain ⟨wide, rfl⟩ := Vec3.direction_eq_ok_iff.mp third
    have apart : ¬ Degenerate tangent normal := (degenerate_iff long).not.mpr wide
    rw [Vec3.direction_of_unit (triad_of_not_degenerate apart).unitThird] at fourth
    cases fourth
    exact ⟨apart, rfl⟩
  · rintro ⟨apart, rfl⟩
    have long : tangent ≠ .origin := fun short => apart (.inl short)
    have wide : normal.across tangent ≠ .origin := (degenerate_iff long).not.mp apart
    have first := Vec3.direction_of_ne_origin long
    obtain ⟨along, second, beside⟩ := left first
    refine ⟨_, along, _, _, first, second, ?_,
      Vec3.direction_of_unit (triad_of_not_degenerate apart).unitThird, rfl⟩
    rw [beside]
    exact Vec3.direction_of_ne_origin wide

/-- An axis fails for want of iterations, or else for want of a direction. -/
theorem make_eq_error {failure : Failure ℝ}
    (failed : make start tangent normal s maxIterations = .error failure) :
    failure = if maxIterations = 0 then .misuse .noIterations else .noDirection := by
  rw [← failure?_eq_some_iff, failure?_make] at failed
  by_cases none : maxIterations = 0
  · simpa [none, eq_comm] using failed
  · rw [if_neg none]
    rw [if_neg none, firstFailure_cons, firstFailure_cons, firstFailure_nil, Option.none_or,
      Option.or_none] at failed
    exact eq_of_lack failed

theorem make_eq_error_iff {failure : Failure ℝ} :
    make start tangent normal s maxIterations = .error failure ↔
      (maxIterations = 0 ∧ failure = .misuse .noIterations) ∨
        (maxIterations ≠ 0 ∧ Degenerate tangent normal ∧ failure = .noDirection) := by
  cases made : make start tangent normal s maxIterations with
  | ok axis =>
      obtain ⟨some, apart, _⟩ := make_eq_ok_iff_apart.mp made
      simp [some, apart]
  | error cause =>
      have refused : ¬ (maxIterations ≠ 0 ∧ ¬ Degenerate tangent normal) := by
        rintro ⟨some, apart⟩
        rw [make_eq_ok_iff_apart.mpr ⟨some, apart, rfl⟩] at made
        cases made
      rw [make_eq_error made, Except.error.injEq]
      by_cases none : maxIterations = 0
      · simp [none, eq_comm]
      · have degenerate : Degenerate tangent normal :=
          not_not.mp fun apart => refused ⟨none, apart⟩
        simp [none, degenerate, eq_comm]

/-- The frame of an axis stands at right angles. -/
theorem orthonormal_of_make (made : make start tangent normal s maxIterations = .ok axis) :
    axis.Orthonormal := by
  obtain ⟨_, apart, rfl⟩ := make_eq_ok_iff_apart.mp made
  exact orthonormal_iff_triad.mpr (triad_of_not_degenerate apart)

/-- An axis is refused as misconfigured if it has no iterations, and else for want of a direction if
its directions lie along one line or are none. Otherwise it is made, with the frame at right angles
that its directions lead to, and its rings leave it at right angles at every iteration and rate. -/
theorem make_outcome (start tangent normal : Vec3 ℝ) (s : Section ℝ) (maxIterations : Nat) :
    ((∃ failure, make start tangent normal s maxIterations = .error failure ∧
        failure.kind = "configuration") ↔ maxIterations = 0) ∧
      (make start tangent normal s maxIterations = .error .noDirection ↔ maxIterations ≠ 0 ∧
        (tangent = .origin ∨ normal = .origin ∨ normal.Along tangent)) ∧
      ((∃ axis, make start tangent normal s maxIterations = .ok axis) ↔ maxIterations ≠ 0 ∧
        ¬ (tangent = .origin ∨ normal = .origin ∨ normal.Along tangent)) ∧
      ∀ axis, make start tangent normal s maxIterations = .ok axis →
        axis.Orthonormal ∧
          (∃ k : ℝ, 0 < k ∧ axis.tangent = k • tangent) ∧
          (∃ k : ℝ, 0 < k ∧ axis.normal = k • normal.across tangent) ∧
          ∀ (coilingRate : Param ℝ) (n : Nat),
            (({ axis with coilingRate } : CoilAxis ℝ).normalAt n).length = 1 ∧
              (({ axis with coilingRate } : CoilAxis ℝ).normalAt n).dot axis.tangent = 0 := by
  refine ⟨?_, ?_, ?_, ?_⟩
  · simp only [make_eq_error_iff]
    constructor
    · rintro ⟨failure, (⟨none, _⟩ | ⟨_, _, rfl⟩), misconfigured⟩
      · exact none
      · exact absurd misconfigured (by decide)
    · exact fun none => ⟨_, .inl ⟨none, rfl⟩, rfl⟩
  · rw [make_eq_error_iff]
    simp [Degenerate]
  · simp only [make_eq_ok_iff_apart]
    constructor
    · rintro ⟨_, several, apart, _⟩
      exact ⟨several, apart⟩
    · rintro ⟨several, apart⟩
      exact ⟨_, several, apart, rfl⟩
  · intro axis made
    have orthonormal := orthonormal_of_make made
    refine ⟨orthonormal, ?_, ?_, ?_⟩
    · obtain ⟨_, apart, rfl⟩ := make_eq_ok_iff_apart.mp made
      exact ⟨_, Vec3.inv_length_pos fun short => apart (.inl short), rfl⟩
    · obtain ⟨_, apart, rfl⟩ := make_eq_ok_iff_apart.mp made
      have ahead : tangent ≠ .origin := fun short => apart (.inl short)
      exact ⟨_, Vec3.inv_length_pos ((degenerate_iff ahead).not.mp apart), rfl⟩
    · intro coilingRate n
      have same : ({ axis with coilingRate } : CoilAxis ℝ).Orthonormal := { orthonormal with }
      obtain ⟨_, triad⟩ := same.triadAt n
      exact ⟨Vec3.length_eq_one_iff.mpr triad.unitFirst, triad.square⟩

/-- A direction at a slant to the axis makes one, whose rings leave it within the plane across it; one
that points back along the axis makes none. -/
theorem slanted_make_outcome :
    (∃ axis : CoilAxis ℝ, make ⟨1, 2, 3⟩ ⟨0, 0, 3⟩ ⟨1, 0, 1⟩ (.fixed []) 4 = .ok axis ∧
        axis.Orthonormal ∧
        (({ axis with coilingRate := .varying ofCount } : CoilAxis ℝ).normalAt 2).dot axis.tangent
          = 0) ∧
      make (⟨1, 2, 3⟩ : Vec3 ℝ) ⟨0, 0, 3⟩ ⟨0, 0, -1⟩ (.fixed []) 4 = .error .noDirection := by
  obtain ⟨_, _, made, placed⟩ := make_outcome ⟨1, 2, 3⟩ ⟨0, 0, 3⟩ ⟨1, 0, 1⟩ (.fixed []) 4
  obtain ⟨_, refused, _, _⟩ := make_outcome ⟨1, 2, 3⟩ ⟨0, 0, 3⟩ ⟨0, 0, -1⟩ (.fixed []) 4
  have apart : ¬ ((⟨0, 0, 3⟩ : Vec3 ℝ) = .origin ∨ (⟨1, 0, 1⟩ : Vec3 ℝ) = .origin ∨
      (⟨1, 0, 1⟩ : Vec3 ℝ).Along ⟨0, 0, 3⟩) := by
    rintro (short | short | ⟨k, along⟩)
    · simp [Vec3.origin] at short
    · simp [Vec3.origin] at short
    · simpa using congrArg Vec3.x along
  have back : (⟨0, 0, -1⟩ : Vec3 ℝ).Along ⟨0, 0, 3⟩ :=
    ⟨-1 / 3, by ext <;> simp⟩
  obtain ⟨axis, found⟩ := made.mpr ⟨by decide, apart⟩
  obtain ⟨orthonormal, _, _, rotated⟩ := placed axis found
  exact ⟨⟨axis, found, orthonormal, (rotated _ 2).2⟩, refused.mpr ⟨by decide, .inr (.inr back)⟩⟩

end CoilAxis

end Tendril
