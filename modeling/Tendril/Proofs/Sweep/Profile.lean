import Tendril.Proofs.Failure
import Tendril.Sweep.Param

/-!
# Profiles

How many points an outline has depends on its kind and its resolution alone, and a blend of two
outlines has as many as each of them. A profile is therefore built once and for all: whatever keeps
it from being built is found before the first ring, and the cross-sections that it is built into are
of one size at every iteration.
-/

namespace Tendril

open Scalar

variable {α : Type} [Scalar α]

namespace Outline

/-- How many points an outline has: a square does not come back to its first corner. -/
def pointCount (outline : Outline) (n : Nat) : Nat :=
  match outline with
  | .circle => n + 1
  | .semiOval => n + 1
  | .square => n

/-- Two outlines of one resolution differ in length when one of them, and only one, is a square. -/
theorem pointCount_eq_iff (outline target : Outline) (n : Nat) :
    outline.pointCount n = target.pointCount n ↔ (outline = .square ↔ target = .square) := by
  cases outline <;> cases target <;> simp [pointCount]

theorem resolution_le_pointCount (outline : Outline) (n : Nat) : n ≤ outline.pointCount n := by
  cases outline <;> simp [pointCount]

/-- Outlines are refused for their resolution and for nothing else. -/
theorem failure?_points (outline : Outline) (radius : α) (n : Nat) :
    failure? (outline.points radius n) =
      if n < minRingSize then some (.misuse (.coarseOutline outline n)) else none := by
  unfold points
  split <;> rfl

theorem minRingSize_le_of_points {outline : Outline} {radius : α} {n : Nat}
    {points : List (Vec2 α)} (drawn : outline.points radius n = .ok points) : minRingSize ≤ n := by
  unfold Outline.points at drawn
  split at drawn
  case isTrue => cases drawn
  case isFalse fine => exact Nat.not_lt.mp fine

theorem length_of_points {outline : Outline} {radius : α} {n : Nat} {points : List (Vec2 α)}
    (drawn : outline.points radius n = .ok points) : points.length = outline.pointCount n := by
  unfold Outline.points at drawn
  split at drawn
  · cases drawn
  · cases outline <;> cases drawn
    · simp [circlePoints, pointCount]
    · simp [semiOvalPoints, pointCount]
    · simp [squarePoints, pointCount]

end Outline

theorem length_blendAt {start finish : List (Vec2 α)} (same : start.length = finish.length)
    (t : α) : (blendAt start finish t).length = start.length := by
  simp [blendAt, same]

/-- Blends are refused for the lengths of the two lists first, and then for the want of steps. -/
theorem failure?_blend (start finish : List (Vec2 α)) (n steps : Nat) :
    failure? (blend start finish n steps) =
      if start.length ≠ finish.length then some (.mismatch .blend start.length finish.length)
      else if steps = 0 then some (.misuse .noBlendSteps)
      else none := by
  unfold blend
  split
  · rfl
  · split <;> rfl

/-- A blend is refused for nothing that has to do with how far it has come. -/
theorem blend_eq_ok_iff {start finish points : List (Vec2 α)} {n steps : Nat} :
    blend start finish n steps = .ok points ↔
      start.length = finish.length ∧ steps ≠ 0 ∧
        blendAt start finish (ofCount n / ofCount steps) = points := by
  unfold blend
  by_cases same : start.length = finish.length
  · by_cases still : steps = 0
    · simp [same, still]
    · simp [same, still]
  · simp [same]

namespace Profile

/-- A profile with too few points. -/
def resolutionFault? (p : Profile α) : Option (Failure α) :=
  if p.resolution.toNat < minRingSize then
    some (.misuse (.coarseOutline p.outline p.resolution.toNat))
  else none

/-- A profile that would turn into an outline of another length. -/
def morphFault? (p : Profile α) : Option (Failure α) :=
  p.morphTo.bind fun target =>
    if (p.outline = .square) ≠ (target = .square) then
      some (.mismatch .blend (p.outline.pointCount p.resolution.toNat)
        (target.pointCount p.resolution.toNat))
    else none

/-- A profile that would turn into another outline in no steps at all. -/
def stepFault? (p : Profile α) (steps : Nat) : Option (Failure α) :=
  p.morphTo.bind fun _ => if steps = 0 then some (.misuse .noBlendSteps) else none

/-- Profiles are refused for their resolution, then for the outline that they turn into, and last
for the want of steps. -/
theorem failure?_build (p : Profile α) (steps : Nat) :
    failure? (p.build steps) =
      firstFailure [p.resolutionFault?, p.morphFault?, p.stepFault? steps] := by
  unfold build
  rw [failure?_bind (p.morphFault?.or (p.stepFault? steps)), Outline.failure?_points]
  · simp [resolutionFault?]
  intro start begun
  have fine : ¬ p.resolution.toNat < minRingSize :=
    Nat.not_lt.mpr (Outline.minRingSize_le_of_points begun)
  cases morph : p.morphTo with
  | none => simp [morphFault?, stepFault?, morph, pure, Except.pure]
  | some target =>
      -- The second outline has the resolution of the first, so it is not refused for it.
      obtain ⟨finish, ended⟩ :
          ∃ finish, target.points p.radius p.resolution.toNat = .ok finish := by
        rw [← failure?_eq_none_iff, Outline.failure?_points, if_neg fine]
      have lengths := Outline.pointCount_eq_iff p.outline target p.resolution.toNat
      rw [← Outline.length_of_points begun, ← Outline.length_of_points ended] at lengths
      show failure? (target.points p.radius p.resolution.toNat >>= _) = _
      rw [ended]
      show failure? (blend start finish 0 steps >>= _) = _
      rw [failure?_bind none (fun _ _ => rfl), Option.or_none, failure?_blend]
      by_cases same : start.length = finish.length
      · simp [morphFault?, stepFault?, morph, same, lengths.mp same]
      · have differ : ¬ (p.outline = .square ↔ target = .square) := fun alike =>
          same (lengths.mpr alike)
        rw [if_pos same]
        simp [morphFault?, stepFault?, morph, differ, Outline.length_of_points begun,
          Outline.length_of_points ended]

theorem minRingSize_le_of_build {p : Profile α} {steps : Nat} {s : Section α}
    (built : p.build steps = .ok s) : minRingSize ≤ p.resolution.toNat := by
  obtain ⟨start, begun, _⟩ := bind_eq_ok_iff.mp built
  exact Outline.minRingSize_le_of_points begun

/-- A profile with one outline is built into that outline. -/
theorem build_eq_ok_iff_of_none {p : Profile α} (lasting : p.morphTo = none) {steps : Nat}
    {s : Section α} :
    p.build steps = .ok s ↔
      ∃ start, p.outline.points p.radius p.resolution.toNat = .ok start ∧ .fixed start = s := by
  unfold build
  simp only [lasting, bind_eq_ok_iff]
  simp [pure, Except.pure]

/-- A profile with two outlines is built into the blends of the two. -/
theorem build_eq_ok_iff_of_some {p : Profile α} {target : Outline} (morph : p.morphTo = some target)
    {steps : Nat} {s : Section α} :
    p.build steps = .ok s ↔
      ∃ start, p.outline.points p.radius p.resolution.toNat = .ok start ∧
        ∃ finish, target.points p.radius p.resolution.toNat = .ok finish ∧
          start.length = finish.length ∧ steps ≠ 0 ∧
          .varying (fun n => blendAt start finish (ofCount n / ofCount steps)) = s := by
  unfold build
  simp only [morph, bind_eq_ok_iff, blend_eq_ok_iff]
  simp [pure, Except.pure, and_assoc]

/-- The cross-sections of a profile are as large at every iteration as its first outline. -/
theorem length_pointsAt_of_build {p : Profile α} {steps : Nat} {s : Section α}
    (built : p.build steps = .ok s) (n : Nat) :
    (s.pointsAt n).length = p.outline.pointCount p.resolution.toNat := by
  cases morph : p.morphTo with
  | none =>
      obtain ⟨start, begun, rfl⟩ := (build_eq_ok_iff_of_none morph).mp built
      exact Outline.length_of_points begun
  | some target =>
      obtain ⟨start, begun, finish, _, same, _, rfl⟩ := (build_eq_ok_iff_of_some morph).mp built
      rw [← Outline.length_of_points begun]
      exact length_blendAt same _

end Profile

end Tendril
