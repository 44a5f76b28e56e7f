import Mathlib.Order.Lattice.Nat
import Tendril.Sweep.Tube

/-!
# What comes of a sweep

A sweep compares each ring with the one before it. As it stops at the first that differs, this comes
to comparing all of them with the first ring: a sweep gets through when no ring ahead lacks points
or differs from the first, and otherwise it stops at the least iteration whose ring does. Where it
stops is all that it changes about the axis.
-/

namespace Tendril

variable {α : Type}

namespace CoilAxis

/-- The rings that a sweep of the axis has to place. -/
def ringCount (axis : CoilAxis α) : Nat := axis.maxIterations - 1 - axis.iteration

/-- The points of the next ring. -/
def ringSize (axis : CoilAxis α) : Nat :=
  (axis.crossSection.pointsAt (axis.iteration + 1)).length

/-- The iterations ahead whose rings a sweep cannot place: they have no points, or more or fewer
than the first. -/
def misfits (axis : CoilAxis α) : Set Nat :=
  {n | axis.iteration < n ∧ n < axis.maxIterations ∧
    ((axis.crossSection.pointsAt n).length = 0 ∨
      (axis.crossSection.pointsAt n).length ≠ axis.ringSize)}

/-- What a sweep fails with at such an iteration. -/
def misfitFailure (axis : CoilAxis α) (n : Nat) : Failure α :=
  if (axis.crossSection.pointsAt n).length = 0 then .misuse (.emptySection n)
  else .mismatch (.ring n) axis.ringSize (axis.crossSection.pointsAt n).length

/-- What keeps the ring of iteration `n` from joining rings of `size` points. -/
def faultAt (axis : CoilAxis α) (size n : Nat) : Option (Failure α) :=
  ringFault? (some size) (axis.crossSection.pointsAt n).length n

/-- The axis, standing at another iteration. -/
def atIteration (axis : CoilAxis α) (n : Nat) : CoilAxis α := { axis with iteration := n }

theorem ringFault?_eq_none_iff {previous : Option Nat} {size iteration : Nat} :
    (ringFault? previous size iteration : Option (Failure α)) = none ↔
      0 < size ∧ ∀ expected ∈ previous, expected = size := by
  unfold ringFault?
  by_cases points : size = 0
  · simp [points]
  · have positive : 0 < size := by omega
    cases previous with
    | none => simp [points, positive]
    | some expected => simp [points, positive, eq_comm]

theorem faultAt_eq_none_iff {axis : CoilAxis α} {size n : Nat} :
    axis.faultAt size n = none ↔
      0 < (axis.crossSection.pointsAt n).length ∧ (axis.crossSection.pointsAt n).length = size := by
  rw [faultAt, ringFault?_eq_none_iff]
  simp [eq_comm]

theorem faultAt_of_mem_misfits {axis : CoilAxis α} {n : Nat} (misfit : n ∈ axis.misfits) :
    axis.faultAt axis.ringSize n = some (axis.misfitFailure n) := by
  obtain ⟨_, _, unlike⟩ := misfit
  unfold faultAt ringFault? misfitFailure
  by_cases empty : (axis.crossSection.pointsAt n).length = 0
  · rw [if_pos empty, if_pos empty]
  · rw [if_neg empty, if_neg empty]
    exact if_pos (unlike.resolve_left empty)

theorem faultAt_of_not_mem_misfits {axis : CoilAxis α} {n : Nat} (behind : axis.iteration < n)
    (inside : n < axis.maxIterations) (fit : n ∉ axis.misfits) :
    axis.faultAt axis.ringSize n = none := by
  rw [faultAt_eq_none_iff]
  by_contra unlike
  exact fit ⟨behind, inside, by omega⟩

/-- Without misfits the rings ahead all have points, and as many as the first. -/
theorem misfits_eq_empty_iff {axis : CoilAxis α} :
    axis.misfits = ∅ ↔ ∀ n, axis.iteration < n → n < axis.maxIterations →
      0 < axis.ringSize ∧ (axis.crossSection.pointsAt n).length = axis.ringSize := by
  rw [Set.eq_empty_iff_forall_notMem]
  constructor
  · intro fit n behind inside
    have sized := faultAt_eq_none_iff.mp (faultAt_of_not_mem_misfits behind inside (fit n))
    omega
  · rintro sized n ⟨behind, inside, unlike⟩
    have here := sized n behind inside
    omega

/-- The size that all rings have is that of the first, if there is any. -/
theorem misfits_eq_empty_iff_exists {axis : CoilAxis α} :
    axis.misfits = ∅ ↔
      ∃ size, 0 < size ∧ ∀ n, axis.iteration < n → n < axis.maxIterations →
        (axis.crossSection.pointsAt n).length = size := by
  rw [misfits_eq_empty_iff]
  constructor
  · intro same
    rcases Nat.lt_or_ge (axis.iteration + 1) axis.maxIterations with ahead | past
    · have first := same (axis.iteration + 1) (by omega) ahead
      exact ⟨axis.ringSize, first.1, fun n behind inside => (same n behind inside).2⟩
    · -- With no ring ahead any size will do.
      exact ⟨1, by omega, fun n behind inside => by omega⟩
  · rintro ⟨size, points, sized⟩ n behind inside
    have first : axis.ringSize = size := sized (axis.iteration + 1) (by omega) (by omega)
    rw [first]
    exact ⟨points, sized n behind inside⟩

variable [Scalar α]

/-! ## Ring by ring -/

/-- The next rings, as many as asked for. -/
def ringsAhead (axis : CoilAxis α) (count : Nat) : List (List (Vec3 α)) :=
  (List.range' (axis.iteration + 1) count).map axis.ringAt

theorem ringsAhead_succ (axis : CoilAxis α) (count : Nat) :
    axis.ringsAhead (count + 1) =
      axis.advance.ringAt axis.advance.iteration :: axis.advance.ringsAhead count := by
  rw [ringsAhead, List.range'_succ, List.map_cons]
  rfl

theorem length_ringsAhead (axis : CoilAxis α) (count : Nat) :
    (axis.ringsAhead count).length = count := by
  rw [ringsAhead, List.length_map, List.length_range']

theorem length_ringAt (axis : CoilAxis α) (n : Nat) :
    (axis.ringAt n).length = (axis.crossSection.pointsAt n).length := by
  rw [ringAt, List.length_map]

/-- The first ring is as good as preceded by a ring of its own size. -/
theorem sweepRings_none (left : Nat) (m : Mesh α) (axis : CoilAxis α) :
    sweepRings left none m axis = sweepRings left (some axis.ringSize) m axis := by
  cases left with
  | zero => rfl
  | succ left =>
      have size : (axis.advance.ringAt axis.advance.iteration).length = axis.ringSize :=
        length_ringAt ..
      simp only [sweepRings, ringFault?, size, ne_eq, not_true_eq_false, if_false]

/-- The next ring stops the sweep, or is placed and leaves rings of the same size to be placed. -/
theorem sweepRings_succ (left size : Nat) (m : Mesh α) (axis : CoilAxis α) :
    sweepRings (left + 1) (some size) m axis =
      match axis.faultAt size (axis.iteration + 1) with
      | some failure => (.error failure, axis.advance)
      | none =>
          sweepRings left (some size) (m.addRing (axis.ringAt (axis.iteration + 1)))
            axis.advance := by
  have next : ringFault? (some size) (axis.advance.ringAt axis.advance.iteration).length
      axis.advance.iteration = axis.faultAt size (axis.iteration + 1) := by
    rw [length_ringAt]
    rfl
  simp only [sweepRings, next]
  cases fault : axis.faultAt size (axis.iteration + 1) with
  | some failure => rfl
  | none =>
      have sized : (axis.advance.ringAt axis.advance.iteration).length = size := by
        rw [length_ringAt]
        exact (faultAt_eq_none_iff.mp fault).2
      rw [sized]
      rfl

/-- Rings that fit are placed one after the other. -/
theorem sweepRings_of_fit {left size : Nat} {m : Mesh α} {axis : CoilAxis α}
    (fit : ∀ n, axis.iteration < n → n ≤ axis.iteration + left → axis.faultAt size n = none) :
    sweepRings left (some size) m axis =
      (.ok ((axis.ringsAhead left).foldl Mesh.addRing m),
        axis.atIteration (axis.iteration + left + 1)) := by
  induction left generalizing m axis with
  | zero => rfl
  | succ left ih =>
      have first := fit (axis.iteration + 1) (by omega) (by omega)
      have later : ∀ n, axis.iteration + 1 < n → n ≤ axis.iteration + 1 + left →
          axis.faultAt size n = none := fun n behind inside => fit n (by omega) (by omega)
      have last : axis.iteration + (left + 1) + 1 = axis.iteration + 1 + left + 1 := by omega
      rw [sweepRings_succ, first, ringsAhead_succ, last]
      exact ih later

/-- A sweep stops at the first ring that does not fit, with what is wrong with it. -/
theorem sweepRings_of_fault {left size n : Nat} {m : Mesh α} {axis : CoilAxis α}
    {failure : Failure α} (behind : axis.iteration < n) (inside : n ≤ axis.iteration + left)
    (fit : ∀ k, axis.iteration < k → k < n → axis.faultAt size k = none)
    (fault : axis.faultAt size n = some failure) :
    sweepRings left (some size) m axis = (.error failure, axis.atIteration n) := by
  induction left generalizing m axis with
  | zero => omega
  | succ left ih =>
      rw [sweepRings_succ]
      by_cases here : axis.iteration + 1 = n
      · subst here
        rw [fault]
        rfl
      · have further : axis.iteration + 1 < n := by omega
        have near : n ≤ axis.iteration + 1 + left := by omega
        have later : ∀ k, axis.iteration + 1 < k → k < n → axis.faultAt size k = none :=
          fun k beyond => fit k (by omega)
        rw [fit (axis.iteration + 1) (by omega) further]
        exact ih further near later fault

/-! ## The whole sweep -/

/-- A sweep without misfits ahead of it places all of its rings. -/
theorem sweep_of_fit {axis : CoilAxis α} (fit : axis.misfits = ∅) :
    axis.sweep = (.ok ((axis.ringsAhead axis.ringCount).foldl Mesh.addRing .empty),
      axis.atIteration (max axis.maxIterations (axis.iteration + 1))) := by
  have free : ∀ n, axis.iteration < n → n ≤ axis.iteration + axis.ringCount →
      axis.faultAt axis.ringSize n = none := by
    intro n behind inside
    have within : n < axis.maxIterations := by
      unfold ringCount at inside
      omega
    exact faultAt_of_not_mem_misfits behind within (by simp [fit])
  have last : axis.iteration + axis.ringCount + 1 =
      max axis.maxIterations (axis.iteration + 1) := by
    unfold ringCount
    omega
  rw [← last, ← sweepRings_of_fit free, ← sweepRings_none]
  rfl

/-- Rings that all have the same points get a sweep through, however many are left. -/
theorem exists_sweep {axis : CoilAxis α} {size : Nat} (some : 0 < size)
    (even : ∀ n, (axis.crossSection.pointsAt n).length = size) : ∃ m, axis.sweep.1 = .ok m := by
  rw [sweep_of_fit (misfits_eq_empty_iff_exists.mpr ⟨size, some, fun n _ _ => even n⟩)]
  exact ⟨_, rfl⟩

/-- Misfits are a matter of the rings that the sweep has to place. -/
theorem misfits_eq_empty_iff_rings {axis : CoilAxis α} :
    axis.misfits = ∅ ↔ ∀ ring ∈ axis.ringsAhead axis.ringCount,
      0 < axis.ringSize ∧ ring.length = axis.ringSize := by
  rw [misfits_eq_empty_iff, ringsAhead, List.forall_mem_map]
  simp only [length_ringAt, List.mem_range'_1, ringCount]
  constructor
  · intro sized n ahead
    exact sized n (by omega) (by omega)
  · intro sized n behind inside
    exact sized n (by omega)

/-- A sweep stops at the least of its misfits. -/
theorem sweep_of_isLeast {axis : CoilAxis α} {n : Nat} (least : IsLeast axis.misfits n) :
    axis.sweep = (.error (axis.misfitFailure n), axis.atIteration n) := by
  obtain ⟨misfit, first⟩ := least
  have behind : axis.iteration < n := misfit.1
  have inside : n < axis.maxIterations := misfit.2.1
  have within : n ≤ axis.iteration + axis.ringCount := by
    unfold ringCount
    omega
  have fit : ∀ k, axis.iteration < k → k < n → axis.faultAt axis.ringSize k = none := by
    intro k later earlier
    have kept : k ∉ axis.misfits := fun found => by
      have := first found
      omega
    exact faultAt_of_not_mem_misfits later (by omega) kept
  rw [← sweepRings_of_fault behind within fit (faultAt_of_mem_misfits misfit), ← sweepRings_none]
  rfl

/-- A sweep gets through exactly when the rings ahead all have points, and the same number of them,
and it is then past the bound. Otherwise it stops at the least iteration whose ring has no points or
not as many as the first, where it finds a cross-section without points or else says how many were
expected and how many were found. It changes nothing about the axis but where it stands. -/
theorem sweep_outcome (axis : CoilAxis α) :
    ((∃ m, axis.sweep.1 = .ok m) ↔
        ∃ size, 0 < size ∧ ∀ n, axis.iteration < n → n < axis.maxIterations →
          (axis.crossSection.pointsAt n).length = size) ∧
      ((∃ m, axis.sweep.1 = .ok m) →
        axis.sweep.2 =
          { axis with iteration := max axis.maxIterations (axis.iteration + 1) }) ∧
      ((¬ ∃ m, axis.sweep.1 = .ok m) →
        ∃ n, IsLeast axis.misfits n ∧
          axis.sweep.1 = .error
            (if (axis.crossSection.pointsAt n).length = 0 then .misuse (.emptySection n)
            else .mismatch (.ring n) (axis.crossSection.pointsAt (axis.iteration + 1)).length
              (axis.crossSection.pointsAt n).length) ∧
          axis.sweep.2 = { axis with iteration := n }) := by
  rw [← misfits_eq_empty_iff_exists]
  rcases Set.eq_empty_or_nonempty axis.misfits with none | some
  · have swept := sweep_of_fit none
    have through : ∃ m, axis.sweep.1 = .ok m := ⟨_, congrArg Prod.fst swept⟩
    exact ⟨iff_of_true through none, fun _ => congrArg Prod.snd swept,
      fun stuck => absurd through stuck⟩
  · have least := isLeast_csInf some
    have swept := sweep_of_isLeast least
    have stuck : ¬ ∃ m, axis.sweep.1 = .ok m := by
      rw [swept]
      rintro ⟨m, placed⟩
      cases placed
    exact ⟨iff_of_false stuck some.ne_empty, fun through => absurd through stuck,
      fun _ => ⟨_, least, congrArg Prod.fst swept, congrArg Prod.snd swept⟩⟩

end CoilAxis

end Tendril
