import Mathlib.Logic.Basic
import Tendril.Proofs.Turtle.Frame
import Tendril.Proofs.Turtle.Tube
import Tendril.Turtle.Basic

/-!
# New turtles

The turtles that can be had before anything is drawn: one made from a place and two directions, with
standard settings or given ones, and any of those with settings changed one by one. They stand where
they were put and have nothing saved. Settings that are in range have no fault left to be found when
they are put into the turtle, so a turtle is refused for its settings or else for its directions.
-/

namespace Tendril

open Scalar

variable {α : Type} [Scalar α]

/-- All settings are in range, each with its own bounds. -/
theorem Settings.fault?_eq_none_iff {s : Settings α} : s.fault? = none ↔
    s.maxIterations.toNat ≠ 0 ∧ isSize s.branchLength = true ∧ isFinite s.turnAngle = true ∧
      minRingSize ≤ s.profileResolution.toNat ∧ isSize s.branchRadius = true ∧
      minRingSize ≤ s.branchResolution.toNat := by
  simp [fault?, ite_eq_iff]

namespace Turtle

theorem make_eq_ok_iff {location tangent normal : Vec3 α} {t : Turtle α} :
    make location tangent normal = .ok t ↔
      ∃ frame, Frame.make location tangent normal = .ok frame ∧
        t = ⟨frame, [], defaultTurnAngle, defaultBranchLength, .standard⟩ := by
  unfold make
  rw [bind_eq_ok_iff]
  constructor
  · rintro ⟨frame, made, finished⟩
    cases finished
    exact ⟨frame, made, rfl⟩
  · rintro ⟨frame, made, rfl⟩
    exact ⟨frame, made, rfl⟩

/-! ## Changing a setting -/

theorem withTurnAngle_eq_ok {t next : Turtle α} {turnAngle : α}
    (changed : t.withTurnAngle turnAngle = .ok next) : next = { t with turnAngle } := by
  unfold withTurnAngle at changed
  split at changed <;> cases changed
  rfl

theorem withBranchLength_eq_ok {t next : Turtle α} {branchLength : α}
    (changed : t.withBranchLength branchLength = .ok next) : next = { t with branchLength } := by
  unfold withBranchLength at changed
  split at changed <;> cases changed
  rfl

theorem isSize_of_withBranchLength {t next : Turtle α} {branchLength : α}
    (changed : t.withBranchLength branchLength = .ok next) : isSize branchLength = true := by
  unfold withBranchLength at changed
  split at changed
  · assumption
  · cases changed

theorem withStyle_eq_ok {t next : Turtle α} {style : TubeStyle α}
    (changed : t.withStyle style = .ok next) : next = { t with style } := by
  unfold withStyle at changed
  split at changed <;> cases changed
  rfl

theorem fault?_of_withStyle {t next : Turtle α} {style : TubeStyle α}
    (changed : t.withStyle style = .ok next) : style.fault? = none := by
  unfold withStyle at changed
  split at changed
  · cases changed
  · assumption

/-! ## All new turtles -/

/-- The turtles that can be had at a place, looking along two directions. -/
inductive Built (location tangent normal : Vec3 α) : Turtle α → Prop
  | make {t : Turtle α} (made : Turtle.make location tangent normal = .ok t) :
      Built location tangent normal t
  | ofSettings {t : Turtle α} {settings : Settings α}
      (made : Turtle.ofSettings location tangent normal settings = .ok t) :
      Built location tangent normal t
  | withTurnAngle {t next : Turtle α} {turnAngle : α} (built : Built location tangent normal t)
      (changed : t.withTurnAngle turnAngle = .ok next) : Built location tangent normal next
  | withBranchLength {t next : Turtle α} {branchLength : α}
      (built : Built location tangent normal t)
      (changed : t.withBranchLength branchLength = .ok next) : Built location tangent normal next
  | withStyle {t next : Turtle α} {style : TubeStyle α} (built : Built location tangent normal t)
      (changed : t.withStyle style = .ok next) : Built location tangent normal next

/-- Settings are put into a standard turtle one by one. -/
theorem ofSettings_eq_ok {location tangent normal : Vec3 α} {settings : Settings α} {t : Turtle α}
    (made : ofSettings location tangent normal settings = .ok t) :
    ∃ frame, Frame.make location tangent normal = .ok frame ∧
      t = ⟨frame, [], settings.turnAngle, settings.branchLength,
        ⟨settings.branchRadius, settings.branchResolution⟩⟩ := by
  unfold ofSettings at made
  cases inRange : settings.fault? with
  | some fault =>
      rw [inRange] at made
      cases made
  | none =>
      simp only [inRange, bind_eq_ok_iff] at made
      obtain ⟨standard, begun, turned, angled, long, lengthened, styled⟩ := made
      obtain ⟨frame, framed, rfl⟩ := make_eq_ok_iff.mp begun
      cases withTurnAngle_eq_ok angled
      cases withBranchLength_eq_ok lengthened
      cases withStyle_eq_ok styled
      exact ⟨frame, framed, rfl⟩

theorem Built.fresh {location tangent normal : Vec3 α} {t : Turtle α}
    (built : Built location tangent normal t) : t.saved = [] ∧ t.frame.location = location := by
  induction built with
  | make made =>
      obtain ⟨frame, framed, rfl⟩ := make_eq_ok_iff.mp made
      exact ⟨rfl, Frame.make_location framed⟩
  | ofSettings made =>
      obtain ⟨frame, framed, rfl⟩ := ofSettings_eq_ok made
      exact ⟨rfl, Frame.make_location framed⟩
  | withTurnAngle _ changed ih =>
      cases withTurnAngle_eq_ok changed
      exact ih
  | withBranchLength _ changed ih =>
      cases withBranchLength_eq_ok changed
      exact ih
  | withStyle _ changed ih =>
      cases withStyle_eq_ok changed
      exact ih

/-- The settings have no part in the frame of a new turtle. -/
theorem Built.framed {location tangent normal : Vec3 α} {t : Turtle α}
    (built : Built location tangent normal t) :
    Frame.make location tangent normal = .ok t.frame := by
  induction built with
  | make made =>
      obtain ⟨frame, framed, rfl⟩ := make_eq_ok_iff.mp made
      exact framed
  | ofSettings made =>
      obtain ⟨frame, framed, rfl⟩ := ofSettings_eq_ok made
      exact framed
  | withTurnAngle _ changed ih =>
      cases withTurnAngle_eq_ok changed
      exact ih
  | withBranchLength _ changed ih =>
      cases withBranchLength_eq_ok changed
      exact ih
  | withStyle _ changed ih =>
      cases withStyle_eq_ok changed
      exact ih

/-! ## Turtles that cannot be had -/

/-- Settings in range pass every check that a turtle makes of them once more. -/
theorem checks_of_inRange {s : Settings α} (inRange : s.fault? = none) :
    isFinite s.turnAngle = true ∧ isSize s.branchLength = true ∧
      (⟨s.branchRadius, s.branchResolution⟩ : TubeStyle α).fault? = none := by
  obtain ⟨_, long, finite, _, thick, fine⟩ := Settings.fault?_eq_none_iff.mp inRange
  exact ⟨finite, long, TubeStyle.fault?_eq_none_iff.mpr ⟨thick, fine⟩⟩

theorem failure?_make (location tangent normal : Vec3 α) :
    failure? (make location tangent normal) = Frame.directionFault? tangent normal := by
  unfold make
  rw [failure?_bind none (fun _ _ => rfl), Option.or_none, Frame.failure?_make]

/-- A turtle is refused for its settings or else for its directions. -/
theorem failure?_ofSettings (location tangent normal : Vec3 α) (settings : Settings α) :
    failure? (ofSettings location tangent normal settings) =
      firstFailure [settings.fault?.map .settings, Frame.directionFault? tangent normal] := by
  unfold ofSettings
  cases inRange : settings.fault? with
  | some fault => rfl
  | none =>
      obtain ⟨finite, long, drawable⟩ := checks_of_inRange inRange
      rw [Option.map_none, firstFailure_cons, firstFailure_cons, firstFailure_nil, Option.none_or,
        ← failure?_make location]
      refine failure?_bind _ fun t _ => ?_
      simp [withTurnAngle, withBranchLength, withStyle, finite, long, drawable, bind, Except.bind]

theorem ofSettings_eq_error {location tangent normal : Vec3 α} {settings : Settings α}
    {failure : Failure α} (failed : ofSettings location tangent normal settings = .error failure) :
    (∃ fault, failure = .settings fault) ∨ failure = .noDirection := by
  rw [← failure?_eq_some_iff, failure?_ofSettings] at failed
  have here := mem_of_firstFailure failed
  simp only [List.mem_cons, List.not_mem_nil, or_false] at here
  rcases here with wild | lost
  · obtain ⟨fault, _, rfl⟩ := Option.map_eq_some_iff.mp wild.symm
    exact .inl ⟨fault, rfl⟩
  · exact .inr (eq_of_lack lost.symm)

/-- The settings that a turtle was made with were in range. -/
theorem fault?_of_ofSettings {location tangent normal : Vec3 α} {settings : Settings α}
    {t : Turtle α} (made : ofSettings location tangent normal settings = .ok t) :
    settings.fault? = none := by
  unfold ofSettings at made
  cases inRange : settings.fault? with
  | some fault =>
      rw [inRange] at made
      cases made
  | none => rfl

/-- The style of a turtle with settings is one that can be drawn. -/
theorem fault?_style_of_ofSettings {location tangent normal : Vec3 α} {settings : Settings α}
    {t : Turtle α} (made : ofSettings location tangent normal settings = .ok t) :
    t.style.fault? = none := by
  have inRange := fault?_of_ofSettings made
  obtain ⟨_, _, rfl⟩ := ofSettings_eq_ok made
  exact (checks_of_inRange inRange).2.2

end Turtle

end Tendril
