import Tendril.Proofs.Exact.Vector
import Tendril.Proofs.Turtle.Frames

/-!
# Exact frames

A frame that is made of two directions at right angles has three axes of length one that stand as
those of a right hand do. Turning such a frame takes two of its axes around in their plane, where
nothing has to be brought back to length one, and whichever two these are the third stays across
them. So all frames of a turtle that starts with such a frame are of this kind.
-/

namespace Tendril

open Scalar

/-- A turn takes two vectors of length one at right angles around in their plane, and never fails. -/
theorem turnPair_eq_ok {u v : Vec3 ℝ} (unitU : u.dot u = 1) (unitV : v.dot v = 1)
    (square : u.dot v = 0) (angle : ℝ) :
    turnPair u v angle =
      .ok (cos angle • u + sin angle • v, cos angle • v - sin angle • u) := by
  have triad : Triad u v (u.cross v) := ⟨unitU, unitV, square, rfl⟩
  have turned := triad.turn (Real.cos_sq_add_sin_sq angle)
  have ahead : (cos angle • u + sin angle • v).direction = .ok _ :=
    Vec3.direction_of_unit turned.unitFirst
  have aside : (cos angle • v - sin angle • u).direction = .ok _ :=
    Vec3.direction_of_unit turned.unitSecond
  rw [turnPair, ahead, aside]
  rfl

namespace Frame

/-- Three axes of length one at right angles, the one aside across the other two. -/
structure Orthonormal (f : Frame ℝ) : Prop where
  length_tangent : f.tangent.length = 1
  length_normal : f.normal.length = 1
  length_binormal : f.binormal.length = 1
  tangent_normal : f.tangent.dot f.normal = 0
  tangent_binormal : f.tangent.dot f.binormal = 0
  normal_binormal : f.normal.dot f.binormal = 0
  across : f.binormal = f.tangent.cross f.normal

variable {f : Frame ℝ}

theorem orthonormal_iff_triad : f.Orthonormal ↔ Triad f.tangent f.normal f.binormal := by
  constructor
  · intro o
    exact ⟨Vec3.length_eq_one_iff.mp o.length_tangent, Vec3.length_eq_one_iff.mp o.length_normal,
      o.tangent_normal, o.across⟩
  · intro triad
    refine ⟨?_, ?_, ?_, triad.square, ?_, triad.cycle.square, triad.across⟩
    · exact Vec3.length_eq_one_iff.mpr triad.unitFirst
    · exact Vec3.length_eq_one_iff.mpr triad.unitSecond
    · exact Vec3.length_eq_one_iff.mpr triad.unitThird
    · exact (Vec3.dot_comm _ _).trans triad.cycle.cycle.square

/-- Two directions at right angles make a frame. -/
theorem make_of_square {tangent normal : Vec3 ℝ} (ahead : tangent ≠ .origin)
    (up : normal ≠ .origin) (square : tangent.dot normal = 0) (location : Vec3 ℝ) :
    ∃ f, make location tangent normal = .ok f ∧ f.Orthonormal := by
  have triad : Triad (tangent.length⁻¹ • tangent) (normal.length⁻¹ • normal)
      ((tangent.length⁻¹ • tangent).cross (normal.length⁻¹ • normal)) := by
    refine ⟨Vec3.dot_self_direction ahead, Vec3.dot_self_direction up, ?_, rfl⟩
    rw [Vec3.dot_smul_smul, square, mul_zero]
  refine ⟨⟨location, _, _, _⟩, ?_, orthonormal_iff_triad.mpr triad⟩
  rw [make, Vec3.direction_of_ne_origin ahead, Vec3.direction_of_ne_origin up]
  show (do let binormal ← Vec3.direction _; return _) = _
  rw [Vec3.direction_of_unit triad.unitThird]
  rfl

/-- The frame with the two axes of a turn taken around. -/
noncomputable def rotated (f : Frame ℝ) (axis : Axis) (angle : ℝ) : Frame ℝ :=
  match axis with
  | .tangent =>
      { f with
        normal := cos angle • f.normal + sin angle • f.binormal
        binormal := cos angle • f.binormal - sin angle • f.normal }
  | .normal =>
      { f with
        tangent := cos angle • f.tangent + sin angle • f.binormal
        binormal := cos angle • f.binormal - sin angle • f.tangent }
  | .binormal =>
      { f with
        tangent := cos angle • f.tangent + sin angle • f.normal
        normal := cos angle • f.normal - sin angle • f.tangent }

namespace Orthonormal

/-- No turn of such a frame fails. -/
theorem turn_eq_ok (orthonormal : f.Orthonormal) (axis : Axis) (angle : ℝ) :
    f.turn axis angle = .ok (f.rotated axis angle) := by
  have triad := orthonormal_iff_triad.mp orthonormal
  cases axis with
  | tangent =>
      rw [turn, turnPair_eq_ok triad.unitSecond triad.unitThird orthonormal.normal_binormal]
      rfl
  | normal =>
      rw [turn, turnPair_eq_ok triad.unitFirst triad.unitThird orthonormal.tangent_binormal]
      rfl
  | binormal =>
      rw [turn, turnPair_eq_ok triad.unitFirst triad.unitSecond orthonormal.tangent_normal]
      rfl

/-- Whichever two axes are taken around, the third stays across them. -/
theorem rotated (orthonormal : f.Orthonormal) (axis : Axis) (angle : ℝ) :
    (f.rotated axis angle).Orthonormal := by
  have triad := orthonormal_iff_triad.mp orthonormal
  have circle : cos angle ^ 2 + sin angle ^ 2 = 1 := Real.cos_sq_add_sin_sq angle
  rw [orthonormal_iff_triad]
  cases axis with
  | tangent => exact (triad.cycle.turn circle).cycle.cycle
  -- The axis aside comes before the one ahead, so this turn is one the other way.
  | normal => exact (triad.cycle.cycle.turnBack circle).cycle
  | binormal => exact triad.turn circle

end Orthonormal

theorem keeps_orthonormal : Keeps Orthonormal where
  moved _ orthonormal := { orthonormal with }
  turned orthonormal turned := by
    rw [orthonormal.turn_eq_ok] at turned
    cases turned
    exact orthonormal.rotated _ _

end Frame

namespace Turtle

/-- A turtle that is made of two directions at right angles, whatever its settings, has right-handed
orthonormal frames and no others, saved or not, on all its journeys. -/
theorem journey_orthonormal {tangent normal : Vec3 ℝ} (ahead : tangent ≠ .origin)
    (up : normal ≠ .origin) (square : tangent.dot normal = 0) (location : Vec3 ℝ) :
    (∃ t, make location tangent normal = .ok t) ∧
      ∀ t, Built location tangent normal t → ∀ words,
        (t.journey words).turtle.AllFrames Frame.Orthonormal := by
  obtain ⟨f, made, orthonormal⟩ := Frame.make_of_square ahead up square location
  refine ⟨⟨_, make_eq_ok_iff.mpr ⟨f, made, rfl⟩⟩, fun t built words => ?_⟩
  have here : t.frame = f := Except.ok.inj (built.framed.symm.trans made)
  rw [← here] at orthonormal
  exact Frame.keeps_orthonormal.journey built orthonormal words

/-- A turtle that turns by one radian, put up with directions of other lengths than one. -/
theorem stroller_journey_orthonormal :
    ((⟨0, 0, 2⟩ : Vec3 ℝ) ≠ .origin ∧ (⟨3, 0, 0⟩ : Vec3 ℝ) ≠ .origin ∧
        (⟨0, 0, 2⟩ : Vec3 ℝ).dot ⟨3, 0, 0⟩ = 0) ∧
      ∃ t next : Turtle ℝ, make ⟨1, 2, 3⟩ ⟨0, 0, 2⟩ ⟨3, 0, 0⟩ = .ok t ∧
        t.withTurnAngle 1 = .ok next ∧
        (next.journey ["[+F&".toList, "]/F[".toList]).turtle.AllFrames Frame.Orthonormal := by
  have ahead : (⟨0, 0, 2⟩ : Vec3 ℝ) ≠ .origin := by simp [Vec3.origin]
  have up : (⟨3, 0, 0⟩ : Vec3 ℝ) ≠ .origin := by simp [Vec3.origin]
  have square : (⟨0, 0, 2⟩ : Vec3 ℝ).dot ⟨3, 0, 0⟩ = 0 := by simp [Vec3.dot]
  obtain ⟨⟨t, made⟩, all⟩ := journey_orthonormal ahead up square ⟨1, 2, 3⟩
  have turning : t.withTurnAngle 1 = .ok { t with turnAngle := 1 } := rfl
  exact ⟨⟨ahead, up, square⟩, t, _, made, turning, all _ (.withTurnAngle (.make made) turning) _⟩

end Turtle

end Tendril
