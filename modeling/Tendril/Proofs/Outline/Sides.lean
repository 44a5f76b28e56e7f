import Mathlib.Algebra.Order.Floor.Div
import Tendril.Proofs.Exact.Vector
import Tendril.Proofs.Guarded.Sweep

/-!
# The sides of a square

Points that are spread evenly over a full turn need not look at the corners of a square: where their
number is no multiple of four, some of the corners fall between two points. The side of a point is
found by dividing whole numbers, without any angle, and it is the right one all the same. A side has
the points from the first that does not look before its corner up to the first that does not look
before the next, and these are a quarter of them all, rounded down or up.
-/

namespace Tendril

namespace Outline

open scoped Real

variable {n s i : ℕ}

/-! ## What the quotient says -/

/-- The quotient is the number of the corner that was passed last. -/
theorem squareSide_eq_iff (some : 0 < n) :
    squareSide n i = s ↔ s * n ≤ 4 * i ∧ 4 * i < (s + 1) * n := by
  rw [squareSide, Nat.div_eq_iff some, Nat.mul_comm i 4, Nat.succ_mul s n]
  omega

theorem squareSide_bounds (inside : i < n) :
    squareSide n i * n ≤ 4 * i ∧ 4 * i < (squareSide n i + 1) * n :=
  (squareSide_eq_iff (Nat.zero_lt_of_lt inside)).mp rfl

theorem squareSide_lt_four (inside : i < n) : squareSide n i < 4 := by
  obtain ⟨behind, _⟩ := squareSide_bounds inside
  have short : squareSide n i * n < 4 * n := by omega
  exact Nat.lt_of_mul_lt_mul_right short

theorem squareSide_monotone (n : ℕ) : Monotone (squareSide n) := by
  intro i j before
  exact Nat.div_le_div_right (Nat.mul_le_mul_right 4 before)

/-! ## The points of a side -/

/-- The points of side `s`, of `n` in all. -/
def onSide (n s : ℕ) : Finset ℕ := {i ∈ Finset.range n | squareSide n i = s}

/-- The first of `n` points that does not look before corner `s`. -/
def cornerAt (n s : ℕ) : ℕ := (s * n) ⌈/⌉ 4

theorem cornerAt_le_iff : cornerAt n s ≤ i ↔ s * n ≤ 4 * i := by
  rw [cornerAt, Nat.ceilDiv_eq_add_pred_div]
  omega

theorem lt_cornerAt_iff : i < cornerAt n s ↔ 4 * i < s * n := by
  rw [← not_le, cornerAt_le_iff, not_le]

/-- The points of a side follow one another. -/
theorem onSide_eq_Ico (side : s < 4) :
    onSide n s = Finset.Ico (cornerAt n s) (cornerAt n (s + 1)) := by
  ext i
  rw [onSide, Finset.mem_filter, Finset.mem_range, Finset.mem_Ico, cornerAt_le_iff, lt_cornerAt_iff]
  constructor
  · rintro ⟨inside, rfl⟩
    exact squareSide_bounds inside
  · rintro ⟨behind, before⟩
    -- The last corner is the first again, a whole turn on, so what looks before it is a point.
    have turn : (s + 1) * n ≤ 4 * n := Nat.mul_le_mul_right n side
    have inside : i < n := by omega
    exact ⟨inside, (squareSide_eq_iff (Nat.zero_lt_of_lt inside)).mpr ⟨behind, before⟩⟩

theorem card_onSide (side : s < 4) :
    (onSide n s).card = n / 4 ∨ (onSide n s).card = n ⌈/⌉ 4 := by
  rw [onSide_eq_Ico side, Nat.card_Ico, cornerAt, cornerAt, Nat.succ_mul s n]
  simp only [Nat.ceilDiv_eq_add_pred_div]
  omega

theorem sum_card_onSide (n : ℕ) : ∑ s ∈ Finset.range 4, (onSide n s).card = n := by
  have shared : Set.MapsTo (squareSide n) (Finset.range n) (Finset.range 4) := by
    intro i member
    have inside : i < n := Finset.mem_range.mp member
    exact Finset.mem_range.mpr (squareSide_lt_four inside)
  calc ∑ s ∈ Finset.range 4, (onSide n s).card
      = (Finset.range n).card := (Finset.card_eq_sum_card_fiberwise shared).symm
    _ = n := Finset.card_range n

/-! ## The direction of a point -/

/-- A point looks between the corners of its side, and never at the second of them. -/
theorem angle_mem_quadrant (inside : i < n) :
    2 * π * i / n ∈ Set.Ico (squareSide n i * (π / 2)) ((squareSide n i + 1) * (π / 2)) := by
  have some : (0 : ℝ) < n := Nat.cast_pos.mpr (Nat.zero_lt_of_lt inside)
  have quarter : 0 < π / 2 := half_pos Real.pi_pos
  obtain ⟨behind, before⟩ := squareSide_bounds inside
  have behind : (squareSide n i * n : ℝ) ≤ 4 * i := by exact_mod_cast behind
  have before : (4 * i : ℝ) < (squareSide n i + 1) * n := by exact_mod_cast before
  have quarters : 2 * π * i = 4 * i * (π / 2) := by ring
  rw [quarters]
  constructor
  · rw [le_div_iff₀ some, mul_right_comm]
    exact mul_le_mul_of_nonneg_right behind quarter.le
  · rw [div_lt_iff₀ some, mul_right_comm _ (π / 2)]
    exact mul_lt_mul_of_pos_right before quarter

/-- Where the quotient can be computed in machine words, the side of a point is one of the four, and
the point looks between the corners of that side, the first of them included. Later points lie on
later sides, or on the same. Each side has a quarter of the points, rounded down or up, and all four
together have all of them. -/
theorem sides_even (few : 4 * n < 2 ^ 64) :
    (∀ i < n, squareSide? n i = some (squareSide n i) ∧ squareSide n i < 4 ∧
      (squareSide n i * n ≤ 4 * i ∧ 4 * i < (squareSide n i + 1) * n) ∧
      2 * π * i / n ∈ Set.Ico (squareSide n i * (π / 2)) ((squareSide n i + 1) * (π / 2))) ∧
    Monotone (squareSide n) ∧
    (∀ s < 4, (onSide n s).card = n / 4 ∨ (onSide n s).card = n ⌈/⌉ 4) ∧
    ∑ s ∈ Finset.range 4, (onSide n s).card = n := by
  refine ⟨?_, squareSide_monotone n, ?_, sum_card_onSide n⟩
  · intro i inside
    exact ⟨squareSide?_eq inside few, squareSide_lt_four inside, squareSide_bounds inside,
      angle_mem_quadrant inside⟩
  · intro s side
    exact card_onSide side

/-- The fifth of six points lies on the third side, which has one point or two. -/
theorem hexagon_sides_even :
    4 * 6 < 2 ^ 64 ∧ squareSide? 6 4 = some 2 ∧
      2 * π * 4 / 6 ∈ Set.Ico (2 * (π / 2)) ((2 + 1) * (π / 2)) ∧
      ((onSide 6 2).card = 1 ∨ (onSide 6 2).card = 2) ∧
      ∑ s ∈ Finset.range 4, (onSide 6 s).card = 6 := by
  have few : 4 * 6 < 2 ^ 64 := by decide
  obtain ⟨points, _, sides, all⟩ := sides_even few
  obtain ⟨found, _, _, between⟩ := points 4 (by decide)
  have third : squareSide 6 4 = 2 := rfl
  rw [third] at found between
  exact ⟨few, found, by exact_mod_cast between, sides 2 (by decide), all⟩

end Outline

end Tendril
