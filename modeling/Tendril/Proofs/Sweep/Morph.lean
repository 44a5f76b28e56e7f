import Tendril.Proofs.Sweep.Profile

/-!
# Profiles on the way

A profile that turns into another outline blends the two at every iteration without asking again
whether they can be blended. The check that is made when it is built stands for all iterations, those
behind the last step included: each cross-section is the blend that a run which checks every time
would come to.
-/

namespace Tendril

variable {α : Type} [Scalar α]

namespace Profile

/-- A profile with one outline looks the same at every iteration, in however many steps. -/
theorem pointsAt_of_none {p : Profile α} (lasting : p.morphTo = none) {steps : Nat} {s : Section α}
    (built : p.build steps = .ok s) :
    ∃ start, p.outline.points p.radius p.resolution.toNat = .ok start ∧
      ∀ n, s.pointsAt n = start := by
  obtain ⟨start, begun, rfl⟩ := (build_eq_ok_iff_of_none lasting).mp built
  exact ⟨start, begun, fun n => rfl⟩

/-- A profile with two outlines is at every iteration what blending them comes to. -/
theorem blend_of_build {p : Profile α} {target : Outline} (morph : p.morphTo = some target)
    {steps : Nat} {s : Section α} (built : p.build steps = .ok s) :
    ∃ start, p.outline.points p.radius p.resolution.toNat = .ok start ∧
      ∃ finish, target.points p.radius p.resolution.toNat = .ok finish ∧
        ∀ n, blend start finish n steps = .ok (s.pointsAt n) ∧
          (s.pointsAt n).length = start.length := by
  obtain ⟨start, begun, finish, ended, same, some, rfl⟩ := (build_eq_ok_iff_of_some morph).mp built
  refine ⟨start, begun, finish, ended, fun n => ⟨?_, length_blendAt same _⟩⟩
  exact blend_eq_ok_iff.mpr ⟨same, some, rfl⟩

/-- Without a second outline the steps do not matter. -/
theorem build_steps {p : Profile α} (lasting : p.morphTo = none) (steps other : Nat) :
    p.build steps = p.build other := by
  unfold build
  simp only [lasting]

/-- Profiles are refused for their resolution first, whatever else is wrong with them. A profile with
two outlines is then refused if one of them, and only one, is a square, and last for the want of
steps. -/
theorem build_eq_error_iff {p : Profile α} {steps : Nat} {failure : Failure α} :
    p.build steps = .error failure ↔
      (p.resolution.toNat < minRingSize ∧
          failure = .misuse (.coarseOutline p.outline p.resolution.toNat)) ∨
        (minRingSize ≤ p.resolution.toNat ∧ ∃ target, p.morphTo = some target ∧
          ((¬ (p.outline = .square ↔ target = .square) ∧
              failure = .mismatch .blend (p.outline.pointCount p.resolution.toNat)
                (target.pointCount p.resolution.toNat)) ∨
            ((p.outline = .square ↔ target = .square) ∧ steps = 0 ∧
              failure = .misuse .noBlendSteps))) := by
  rw [← failure?_eq_some_iff, failure?_build]
  simp only [firstFailure_cons, firstFailure_nil, Option.or_none, resolutionFault?, morphFault?,
    stepFault?]
  by_cases coarse : p.resolution.toNat < minRingSize
  · simp [coarse, Nat.not_le.mpr coarse, @eq_comm _ failure]
  have fine : minRingSize ≤ p.resolution.toNat := Nat.not_lt.mp coarse
  cases morph : p.morphTo with
  | none => simp [coarse]
  | some target =>
      by_cases alike : p.outline = .square ↔ target = .square
      · by_cases still : steps = 0
        · simp [coarse, fine, alike, still, @eq_comm _ failure]
        · simp [coarse, alike, still]
      · simp [coarse, fine, alike, @eq_comm _ failure]

/-- A built profile with two outlines has at every iteration the cross-section that blending its
outlines there comes to, as long as the first of them; one with a single outline has that outline
throughout, and does not look at the steps. A profile is refused for its resolution, or else for
turning into an outline of another length, or else for doing so in no steps. -/
theorem build_outcome (p : Profile α) (steps : Nat) :
    (∀ s, p.build steps = .ok s →
      ∃ start, p.outline.points p.radius p.resolution.toNat = .ok start ∧
        (p.morphTo = none → ∀ n, s.pointsAt n = start) ∧
        ∀ target, p.morphTo = some target →
          ∃ finish, target.points p.radius p.resolution.toNat = .ok finish ∧
            ∀ n, blend start finish n steps = .ok (s.pointsAt n) ∧
              (s.pointsAt n).length = start.length) ∧
      (p.morphTo = none → ∀ other, p.build steps = p.build other) ∧
      ∀ failure, p.build steps = .error failure ↔
        (p.resolution.toNat < minRingSize ∧
            failure = .misuse (.coarseOutline p.outline p.resolution.toNat)) ∨
          (minRingSize ≤ p.resolution.toNat ∧ ∃ target, p.morphTo = some target ∧
            ((¬ (p.outline = .square ↔ target = .square) ∧
                failure = .mismatch .blend (p.outline.pointCount p.resolution.toNat)
                  (target.pointCount p.resolution.toNat)) ∨
              ((p.outline = .square ↔ target = .square) ∧ steps = 0 ∧
                failure = .misuse .noBlendSteps))) := by
  refine ⟨fun s built => ?_, fun lasting other => build_steps lasting steps other,
    fun failure => build_eq_error_iff⟩
  cases morph : p.morphTo with
  | none =>
      obtain ⟨start, begun, same⟩ := pointsAt_of_none morph built
      exact ⟨start, begun, fun _ => same, fun target other => by cases other⟩
  | some target =>
      obtain ⟨start, begun, finish, ended, blended⟩ := blend_of_build morph built
      refine ⟨start, begun, fun lasting => (by cases lasting), fun other same => ?_⟩
      cases same
      exact ⟨finish, ended, blended⟩

/-- A circle that opens into half an oval. -/
def bud : Profile Float :=
  { outline := .circle, radius := 2, resolution := 8, morphTo := some .semiOval }

theorem bud_build_outcome :
    ∃ s start finish, bud.build 4 = .ok s ∧ Outline.circle.points 2 8 = .ok start ∧
      Outline.semiOval.points 2 8 = .ok finish ∧ blend start finish 9 4 = .ok (s.pointsAt 9) ∧
      (s.pointsAt 9).length = start.length ∧
      bud.build 0 = .error (.misuse .noBlendSteps) := by
  have passed : failure? (bud.build 4) = none := by
    rw [failure?_build]
    decide
  obtain ⟨s, built⟩ := failure?_eq_none_iff.mp passed
  obtain ⟨start, begun, _, blends⟩ := (build_outcome bud 4).1 s built
  obtain ⟨finish, ended, blended⟩ := blends .semiOval rfl
  refine ⟨s, start, finish, built, begun, ended, (blended 9).1, (blended 9).2, ?_⟩
  exact ((build_outcome bud 0).2.2 _).mpr
    (.inr ⟨by decide, .semiOval, rfl, .inr ⟨by decide, rfl, rfl⟩⟩)

end Profile

end Tendril
