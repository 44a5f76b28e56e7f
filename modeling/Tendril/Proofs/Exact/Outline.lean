import Tendril.Proofs.Outline.Sides

/-!
# Outlines and their curves

Read over the real numbers, the points of an outline lie on the curve that it is named after. For
the circle and the half oval that is the law of sines and cosines. On the square, sines and cosines
grow and shrink by turns. What is the same on all four sides is the sum of their sizes: a quarter
turn does not change it, so that the first side speaks for the others, and there it follows from the
angle with the middle of the side. As no point is farther from a middle than an eighth of a turn,
its distance is never divided by nothing.
-/

namespace Tendril

open Scalar

open scoped Real

/-! ## Around a quarter turn -/

theorem abs_cos_add_abs_sin_periodic :
    Function.Periodic (fun a : ℝ => |Real.cos a| + |Real.sin a|) (π / 2) := by
  intro a
  show |Real.cos (a + π / 2)| + |Real.sin (a + π / 2)| = |Real.cos a| + |Real.sin a|
  rw [Real.cos_add_pi_div_two, Real.sin_add_pi_div_two, abs_neg, add_comm]

theorem cos_add_sin (a : ℝ) : Real.cos a + Real.sin a = √2 * Real.cos (a - π / 4) := by
  have root : √2 * (√2 / 2) = 1 := by
    rw [mul_div_assoc', Real.mul_self_sqrt zero_le_two, div_self two_ne_zero]
  rw [Real.cos_sub, Real.cos_pi_div_four, Real.sin_pi_div_four, ← add_mul, mul_left_comm, root,
    mul_one]

/-- Within an eighth of a turn, a cosine does not come below that of an eighth of a turn. -/
theorem sqrt_two_div_two_le_cos {a : ℝ} (near : |a| ≤ π / 4) : √2 / 2 ≤ Real.cos a := by
  have half : π / 4 ≤ π := div_le_self Real.pi_pos.le (by norm_num)
  rw [← Real.cos_pi_div_four, ← Real.cos_abs a]
  exact Real.cos_le_cos_of_nonneg_of_le_pi (abs_nonneg a) half near

/-- In each quadrant, the two sizes add up to what the angle with its middle says. -/
theorem abs_cos_add_abs_sin {s : ℕ} {a : ℝ}
    (quadrant : a ∈ Set.Ico (s * (π / 2)) ((s + 1) * (π / 2))) :
    |Real.cos a| + |Real.sin a| = √2 * Real.cos (a - s * (π / 2) - π / 4) := by
  obtain ⟨behind, before⟩ := quadrant
  have begun : 0 ≤ a - s * (π / 2) := sub_nonneg.mpr behind
  have ended : a - s * (π / 2) ≤ π / 2 := by linarith
  have right : 0 ≤ Real.cos (a - s * (π / 2)) :=
    Real.cos_nonneg_of_neg_pi_div_two_le_of_le (by linarith [Real.pi_pos]) ended
  have upward : 0 ≤ Real.sin (a - s * (π / 2)) :=
    Real.sin_nonneg_of_nonneg_of_le_pi begun (by linarith [Real.pi_pos])
  calc |Real.cos a| + |Real.sin a|
      = |Real.cos (a - s * (π / 2))| + |Real.sin (a - s * (π / 2))| :=
        (abs_cos_add_abs_sin_periodic.sub_nat_mul_eq s).symm
    _ = Real.cos (a - s * (π / 2)) + Real.sin (a - s * (π / 2)) := by
        rw [abs_of_nonneg right, abs_of_nonneg upward]
    _ = √2 * Real.cos (a - s * (π / 2) - π / 4) := cos_add_sin _

namespace Outline

/-! ## Angles -/

section Angles

variable {α : Type} [Scalar α]

/-- The direction of point `i`, of `n` that are spread evenly over a full turn. -/
def turnAt (n i : ℕ) : α := ofCount i * (two * pi / ofCount n)

/-- The angle that point `i` of a half oval is drawn for, of `n` over half a turn. -/
def halfTurnAt (n i : ℕ) : α := ofCount i * (pi / ofCount n)

/-- How far point `i` of `n` looks past the middle of its side. -/
def slantAt (n i : ℕ) : α := turnAt n i - ofCount (squareSide n i) * (pi / two) - pi / ofCount 4

end Angles

variable {radius : ℝ} {n i : ℕ}

private theorem two_real : (two : ℝ) = 2 := Nat.cast_ofNat

theorem turnAt_eq (n i : ℕ) : turnAt n i = 2 * π * i / n := by
  show (i : ℝ) * (two * π / n) = 2 * π * i / n
  rw [two_real, mul_div_left_comm, ← mul_div_assoc]

theorem halfTurnAt_eq (n i : ℕ) : halfTurnAt n i = π * i / n := by
  show (i : ℝ) * (π / n) = π * i / n
  rw [mul_div_left_comm, ← mul_div_assoc]

theorem slantAt_eq (n i : ℕ) :
    slantAt n i = 2 * π * i / n - squareSide n i * (π / 2) - π / 4 := by
  show turnAt n i - (squareSide n i : ℝ) * (π / two) - π / (4 : ℕ) = _
  rw [turnAt_eq, two_real, Nat.cast_ofNat]

/-! ## Circles -/

theorem getElem?_circlePoints (within : i ≤ n) :
    (circlePoints radius n)[i]? = some (.ofPolar radius (turnAt n i)) := by
  rw [circlePoints, List.getElem?_map, List.getElem?_range (Nat.lt_succ_of_le within)]
  rfl

theorem mem_circle {p : Vec2 ℝ} (member : p ∈ circlePoints radius n) :
    p.x ^ 2 + p.y ^ 2 = radius ^ 2 := by
  obtain ⟨i, _, rfl⟩ := List.mem_map.mp member
  show (radius * Real.cos (turnAt n i)) ^ 2 + (radius * Real.sin (turnAt n i)) ^ 2 = radius ^ 2
  rw [mul_pow, mul_pow, ← mul_add, Real.cos_sq_add_sin_sq, mul_one]

/-- The last point of a circle is a whole turn beyond the first. -/
theorem circlePoints_closed (positive : 0 < n) :
    (circlePoints radius n).head? = (circlePoints radius n).getLast? := by
  have begun : turnAt n 0 = (0 : ℝ) := by rw [turnAt_eq, Nat.cast_zero, mul_zero, zero_div]
  have ended : turnAt n n = 2 * π := by
    rw [turnAt_eq, mul_div_cancel_right₀ _ (Nat.cast_ne_zero.mpr positive.ne')]
  have around : Vec2.ofPolar radius (turnAt n 0) = Vec2.ofPolar radius (turnAt n n) := by
    rw [begun, ended]
    show Vec2.mk (radius * Real.cos 0) (radius * Real.sin 0) =
      Vec2.mk (radius * Real.cos (2 * π)) (radius * Real.sin (2 * π))
    rw [Real.cos_two_pi, Real.sin_two_pi, Real.cos_zero, Real.sin_zero]
  rw [circlePoints, List.head?_map, List.getLast?_map, List.head?_range, List.getLast?_range]
  exact congrArg some around

/-! ## Half ovals -/

theorem getElem?_semiOvalPoints (inside : i < n) :
    (semiOvalPoints radius n)[i]? =
      some ⟨radius * Real.cos (halfTurnAt n i), radius * (2 * Real.sin (halfTurnAt n i))⟩ := by
  rw [semiOvalPoints, List.getElem?_append_left, List.getElem?_map, List.getElem?_range inside]
  · rw [← two_real]
    rfl
  · rwa [List.length_map, List.length_range]

theorem sin_halfTurnAt_nonneg (inside : i < n) : 0 ≤ Real.sin (halfTurnAt n i) := by
  have within : (i : ℝ) ≤ n := Nat.cast_le.mpr inside.le
  have begun : (0 : ℝ) ≤ halfTurnAt n i := by
    rw [halfTurnAt_eq]
    positivity
  have ended : halfTurnAt n i ≤ π := by
    rw [halfTurnAt_eq, mul_div_assoc]
    exact mul_le_of_le_one_right Real.pi_pos.le (div_le_one_of_le₀ within n.cast_nonneg)
  exact Real.sin_nonneg_of_nonneg_of_le_pi begun ended

theorem mem_semiOval (wide : 0 < radius) {p : Vec2 ℝ} (member : p ∈ semiOvalPoints radius n) :
    (p.x / radius) ^ 2 + (p.y / (2 * radius)) ^ 2 = 1 ∧ 0 ≤ p.y := by
  rcases List.mem_append.mp member with turned | last
  · obtain ⟨i, ranged, rfl⟩ := List.mem_map.mp turned
    have upward := sin_halfTurnAt_nonneg (List.mem_range.mp ranged)
    show (radius * Real.cos (halfTurnAt n i) / radius) ^ 2 +
        (radius * (two * Real.sin (halfTurnAt n i)) / (2 * radius)) ^ 2 = 1 ∧
      0 ≤ radius * (two * Real.sin (halfTurnAt n i))
    rw [two_real]
    constructor
    · rw [mul_div_cancel_left₀ _ wide.ne', mul_left_comm, mul_div_mul_left _ _ two_ne_zero,
        mul_div_cancel_left₀ _ wide.ne']
      exact Real.cos_sq_add_sin_sq _
    · exact mul_nonneg wide.le (mul_nonneg zero_le_two upward)
  · rw [List.mem_singleton.mp last]
    show (-radius / radius) ^ 2 + (zero / (2 * radius)) ^ 2 = 1 ∧ (0 : ℝ) ≤ zero
    rw [zero_real, neg_div, div_self wide.ne', zero_div]
    norm_num

/-! ## Squares -/

theorem getElem?_squarePoints (inside : i < n) :
    (squarePoints radius n)[i]? =
      some (.ofPolar (radius / √2 / Real.cos (slantAt n i)) (turnAt n i)) := by
  rw [squarePoints, List.getElem?_map, List.getElem?_range inside, ← two_real]
  rfl

/-- No point is farther from the middle of its side than the corners are. -/
theorem sqrt_two_div_two_le_cos_slantAt (inside : i < n) : √2 / 2 ≤ Real.cos (slantAt n i) := by
  obtain ⟨behind, before⟩ := angle_mem_quadrant inside
  have near : |slantAt n i| ≤ π / 4 := by
    rw [slantAt_eq, abs_le]
    constructor <;> linarith
  exact sqrt_two_div_two_le_cos near

theorem mem_square (wide : 0 < radius) {p : Vec2 ℝ} (member : p ∈ squarePoints radius n) :
    |p.x| + |p.y| = radius := by
  obtain ⟨i, ranged, rfl⟩ := List.mem_map.mp member
  have inside : i < n := List.mem_range.mp ranged
  have root : 0 < √2 := Real.sqrt_pos.mpr two_pos
  have divisor : 0 < Real.cos (slantAt n i) :=
    (half_pos root).trans_le (sqrt_two_div_two_le_cos_slantAt inside)
  have distance : 0 < radius / √2 / Real.cos (slantAt n i) := div_pos (div_pos wide root) divisor
  have sizes : |Real.cos (turnAt n i)| + |Real.sin (turnAt n i)| = √2 * Real.cos (slantAt n i) := by
    rw [slantAt_eq, turnAt_eq]
    exact abs_cos_add_abs_sin (angle_mem_quadrant inside)
  show |radius / √two / Real.cos (slantAt n i) * Real.cos (turnAt n i)| +
    |radius / √two / Real.cos (slantAt n i) * Real.sin (turnAt n i)| = radius
  rw [two_real, abs_mul, abs_mul, ← mul_add, sizes, abs_of_pos distance]
  field_simp

/-! ## All outlines -/

/-- The points of every outline lie on its curve, in directions or at angles that are evenly spread.
A circle ends where it begins and a half oval on the other side. On a square, the number that the
distance of a point is divided by is never less than it is at the corners. -/
theorem points_on_curve (wide : 0 < radius) (fine : 3 ≤ n) :
    (∃ circle, Outline.circle.points radius n = .ok circle ∧ circle.length = n + 1 ∧
      (∀ p ∈ circle, p.x ^ 2 + p.y ^ 2 = radius ^ 2) ∧ circle.head? = circle.getLast? ∧
      ∀ i ≤ n, circle[i]? = some (.ofPolar radius (2 * π * i / n))) ∧
    (∃ oval, Outline.semiOval.points radius n = .ok oval ∧ oval.length = n + 1 ∧
      (∀ p ∈ oval, (p.x / radius) ^ 2 + (p.y / (2 * radius)) ^ 2 = 1 ∧ 0 ≤ p.y) ∧
      oval.getLast? = some ⟨-radius, 0⟩ ∧
      ∀ i < n, ∃ y, oval[i]? = some ⟨radius * Real.cos (π * i / n), y⟩) ∧
    ∃ square, Outline.square.points radius n = .ok square ∧ square.length = n ∧
      (∀ p ∈ square, |p.x| + |p.y| = radius) ∧
      ∀ i < n, ∃ divisor,
        divisor = Real.cos (2 * π * i / n - squareSide n i * (π / 2) - π / 4) ∧
        √2 / 2 ≤ divisor ∧
        square[i]? = some (.ofPolar (radius / √2 / divisor) (2 * π * i / n)) := by
  have enough : ¬ n < minRingSize := Nat.not_lt.mpr fine
  have circle : Outline.circle.points radius n = .ok (circlePoints radius n) := if_neg enough
  have oval : Outline.semiOval.points radius n = .ok (semiOvalPoints radius n) := if_neg enough
  have square : Outline.square.points radius n = .ok (squarePoints radius n) := if_neg enough
  refine ⟨⟨_, circle, length_of_points circle, fun _ => mem_circle, ?_, ?_⟩,
    ⟨_, oval, length_of_points oval, fun _ => mem_semiOval wide, ?_, ?_⟩,
    ⟨_, square, length_of_points square, fun _ => mem_square wide, ?_⟩⟩
  · exact circlePoints_closed (Nat.zero_lt_of_lt fine)
  · intro i within
    rw [getElem?_circlePoints within, turnAt_eq]
  · rw [semiOvalPoints, List.getLast?_concat, zero_real]
  · intro i inside
    rw [getElem?_semiOvalPoints inside, halfTurnAt_eq]
    exact ⟨_, rfl⟩
  · intro i inside
    refine ⟨Real.cos (slantAt n i), ?_, sqrt_two_div_two_le_cos_slantAt inside, ?_⟩
    · rw [slantAt_eq]
    · rw [getElem?_squarePoints inside, turnAt_eq]

/-- Of the corners, five points look at the first alone. -/
theorem pentagon_points_on_curve :
    ((0 : ℝ) < 2 ∧ 3 ≤ 5 ∧ 3 < 5) ∧
      (∃ circle, Outline.circle.points (2 : ℝ) 5 = .ok circle ∧
        circle.head? = circle.getLast? ∧ ∃ p ∈ circle, p.x ^ 2 + p.y ^ 2 = 2 ^ 2) ∧
      (∃ oval, Outline.semiOval.points (2 : ℝ) 5 = .ok oval ∧ oval.getLast? = some ⟨-2, 0⟩ ∧
        ∃ p ∈ oval, (p.x / 2) ^ 2 + (p.y / (2 * 2)) ^ 2 = 1 ∧ 0 ≤ p.y) ∧
      ∃ square p, Outline.square.points (2 : ℝ) 5 = .ok square ∧ square[3]? = some p ∧
        |p.x| + |p.y| = 2 ∧ √2 / 2 ≤ Real.cos (2 * π * 3 / 5 - 2 * (π / 2) - π / 4) := by
  have wide : (0 : ℝ) < 2 := two_pos
  obtain ⟨⟨circle, turned, many, round, closed, _⟩, ⟨oval, halved, more, arched, ended, _⟩,
    square, cornered, _, even, slants⟩ := points_on_curve wide (n := 5) (by decide)
  obtain ⟨p, among⟩ := List.exists_mem_of_length_pos (by omega : 0 < circle.length)
  obtain ⟨q, within⟩ := List.exists_mem_of_length_pos (by omega : 0 < oval.length)
  obtain ⟨divisor, slanted, far, fourth⟩ := slants 3 (by decide)
  have third : squareSide 5 3 = 2 := rfl
  rw [slanted, third] at far
  refine ⟨⟨wide, by decide, by decide⟩, ⟨circle, turned, closed, p, among, round p among⟩,
    ⟨oval, halved, ended, q, within, arched q within⟩, square, _, cornered, fourth, ?_, ?_⟩
  · exact even _ (List.mem_of_getElem? fourth)
  · exact_mod_cast far

end Outline

end Tendril
