import Mathlib.Analysis.SpecialFunctions.Trigonometric.Basic
import Tendril.Failure

/-!
# Exact vectors

Over the real numbers every operation is exact, all numbers are finite, and every vector but the
origin has a direction. What is known of lengths and right angles can then be carried through sums
and products. `Triad` says that three vectors stand as the axes of a right-handed frame do; it is
kept when they take each other's places in turn, and when the first two turn within their plane.
-/

namespace Tendril

open Scalar

noncomputable instance : Scalar ℝ where
  ofCount n := n
  sqrt := Real.sqrt
  sin := Real.sin
  cos := Real.cos
  pi := Real.pi
  beq a b := decide (a = b)
  lt a b := decide (a < b)
  isFinite _ := true

@[simp] theorem Scalar.zero_real : (zero : ℝ) = 0 := Nat.cast_zero

@[simp] theorem Scalar.one_real : (one : ℝ) = 1 := Nat.cast_one

attribute [ext] Vec3

namespace Vec3

section Components

variable {α : Type} [Scalar α] (a b : Vec3 α) (k : α)

@[simp] theorem add_x : (a + b).x = a.x + b.x := rfl
@[simp] theorem add_y : (a + b).y = a.y + b.y := rfl
@[simp] theorem add_z : (a + b).z = a.z + b.z := rfl

@[simp] theorem sub_x : (a - b).x = a.x - b.x := rfl
@[simp] theorem sub_y : (a - b).y = a.y - b.y := rfl
@[simp] theorem sub_z : (a - b).z = a.z - b.z := rfl

@[simp] theorem smul_x : (k • a).x = k * a.x := rfl
@[simp] theorem smul_y : (k • a).y = k * a.y := rfl
@[simp] theorem smul_z : (k • a).z = k * a.z := rfl

end Components

/-! ## Products -/

variable (a b c : Vec3 ℝ) (k l m n : ℝ)

theorem dot_comm : a.dot b = b.dot a := by
  simp only [dot]
  ring

theorem dot_smul_smul : (k • a).dot (l • b) = k * l * a.dot b := by
  simp only [dot, smul_x, smul_y, smul_z]
  ring

theorem dot_combine : (k • a + l • b).dot (m • a + n • b) =
    k * m * a.dot a + (k * n + l * m) * a.dot b + l * n * b.dot b := by
  simp only [dot, add_x, add_y, add_z, smul_x, smul_y, smul_z]
  ring

theorem cross_combine :
    (k • a + l • b).cross (m • a + n • b) = (k * n - l * m) • a.cross b := by
  ext <;> simp only [cross, add_x, add_y, add_z, smul_x, smul_y, smul_z] <;> ring

theorem dot_cross_right : b.dot (a.cross b) = 0 := by
  simp only [dot, cross]
  ring

/-- Lagrange's identity. -/
theorem dot_cross_self : (a.cross b).dot (a.cross b) = a.dot a * b.dot b - a.dot b * a.dot b := by
  simp only [dot, cross]
  ring

theorem cross_cross : a.cross (b.cross c) = a.dot c • b - a.dot b • c := by
  ext <;> simp only [dot, cross, sub_x, sub_y, sub_z, smul_x, smul_y, smul_z] <;> ring

/-! ## Lengths and directions -/

variable {a}

theorem length_eq_one_iff : a.length = 1 ↔ a.dot a = 1 := Real.sqrt_eq_one

theorem dot_self_nonneg (a : Vec3 ℝ) : 0 ≤ a.dot a :=
  add_nonneg (add_nonneg (mul_self_nonneg a.x) (mul_self_nonneg a.y)) (mul_self_nonneg a.z)

theorem dot_self_eq_zero_iff : a.dot a = 0 ↔ a = origin := by
  constructor
  · intro short
    have planar := add_nonneg (mul_self_nonneg a.x) (mul_self_nonneg a.y)
    obtain ⟨xy, z⟩ := (add_eq_zero_iff_of_nonneg planar (mul_self_nonneg a.z)).mp short
    obtain ⟨x, y⟩ :=
      (add_eq_zero_iff_of_nonneg (mul_self_nonneg a.x) (mul_self_nonneg a.y)).mp xy
    ext
    · simpa [origin] using x
    · simpa [origin] using y
    · simpa [origin] using z
  · rintro rfl
    simp [dot, origin]

theorem length_eq_zero_iff : a.length = 0 ↔ a = origin :=
  (Real.sqrt_eq_zero (dot_self_nonneg a)).trans dot_self_eq_zero_iff

theorem length_mul_self (a : Vec3 ℝ) : a.length * a.length = a.dot a :=
  Real.mul_self_sqrt (dot_self_nonneg a)

/-- Only the origin has no direction. -/
theorem direction_of_ne_origin (long : a ≠ origin) : a.direction = .ok (a.length⁻¹ • a) := by
  have length : a.length ≠ 0 := fun none => long (length_eq_zero_iff.mp none)
  have unlike : (a.length == (zero : ℝ)) = false := by
    rw [zero_real]
    exact decide_eq_false length
  rw [direction, normalize?, unlike]
  show Except.ok _ = _
  congr 1
  ext
  · exact div_eq_inv_mul ..
  · exact div_eq_inv_mul ..
  · exact div_eq_inv_mul ..

theorem dot_self_direction (long : a ≠ origin) :
    (a.length⁻¹ • a).dot (a.length⁻¹ • a) = 1 := by
  have length : a.length ≠ 0 := fun none => long (length_eq_zero_iff.mp none)
  rw [dot_smul_smul, ← length_mul_self]
  field_simp

/-- A vector of length one is its own direction. -/
theorem direction_of_unit (unit : a.dot a = 1) : a.direction = .ok a := by
  have long : a ≠ origin := by
    rw [Ne, ← dot_self_eq_zero_iff, unit]
    exact one_ne_zero
  rw [direction_of_ne_origin long, length_eq_one_iff.mpr unit]
  congr 1
  ext <;> simp

end Vec3

/-! ## Right-handed triads -/

/-- Three vectors of length one at right angles, the third across the first two. -/
structure Triad (u v w : Vec3 ℝ) : Prop where
  unitFirst : u.dot u = 1
  unitSecond : v.dot v = 1
  square : u.dot v = 0
  across : w = u.cross v

namespace Triad

variable {u v w : Vec3 ℝ}

theorem unitThird (triad : Triad u v w) : w.dot w = 1 := by
  rw [triad.across, Vec3.dot_cross_self, triad.unitFirst, triad.unitSecond, triad.square]
  norm_num

/-- What the first two combine to is as long as the square root of the squares says. -/
theorem length_combine (triad : Triad u v w) (a b : ℝ) :
    (a • u + b • v).length = √(a ^ 2 + b ^ 2) := by
  have square : (a • u + b • v).dot (a • u + b • v) = a ^ 2 + b ^ 2 := by
    rw [Vec3.dot_combine, triad.unitFirst, triad.unitSecond, triad.square]
    ring
  rw [Vec3.length, square]
  rfl

/-- Each of the three may stand first. -/
theorem cycle (triad : Triad u v w) : Triad v w u where
  unitFirst := triad.unitSecond
  unitSecond := triad.unitThird
  square := by
    rw [triad.across]
    exact Vec3.dot_cross_right u v
  across := by
    have swapped : v.dot u = 0 := (Vec3.dot_comm v u).trans triad.square
    rw [triad.across, Vec3.cross_cross, triad.unitSecond, swapped]
    ext <;> simp

/-- The first two may turn within their plane. -/
theorem turn (triad : Triad u v w) {c s : ℝ} (circle : c ^ 2 + s ^ 2 = 1) :
    Triad (c • u + s • v) (c • v - s • u) w := by
  have behind : c • v - s • u = -s • u + c • v := by
    ext <;> simp <;> ring
  rw [behind]
  refine ⟨?_, ?_, ?_, ?_⟩
  · rw [Vec3.dot_combine, triad.unitFirst, triad.unitSecond, triad.square]
    linarith
  · rw [Vec3.dot_combine, triad.unitFirst, triad.unitSecond, triad.square]
    linarith
  · rw [Vec3.dot_combine, triad.unitFirst, triad.unitSecond, triad.square]
    ring
  · rw [Vec3.cross_combine, ← triad.across, show c * c - s * -s = 1 by linarith]
    ext <;> simp

/-- They may as well turn the other way. -/
theorem turnBack (triad : Triad u v w) {c s : ℝ} (circle : c ^ 2 + s ^ 2 = 1) :
    Triad (c • u - s • v) (c • v + s • u) w := by
  have back := triad.turn (c := c) (s := -s) (by rw [neg_sq, circle])
  have first : c • u + -s • v = c • u - s • v := by
    ext <;> simp <;> ring
  have second : c • v - -s • u = c • v + s • u := by
    ext <;> simp
  rwa [first, second] at back

end Triad

end Tendril
