import Tendril.Proofs.Double.Order
import Tendril.Proofs.Turtle.Built

/-!
# Settings of turtles

Settings are checked as a whole, and those that a turtle keeps are checked again, one by one, when
it is given them. Both checks refuse the same doubles: a size that is zero or below, or not finite,
where what is no number is not below zero, but not finite either. Settings have the fault of the
first one that is out of range, so a turtle is refused for its settings or else for its directions,
never for what it is given one by one.
-/

namespace Tendril

open Scalar

/-! ## The first setting out of range -/

/-- What settings are checked for. -/
inductive Setting where
  | maxIterations
  | branchLength
  | turnAngle
  | profileResolution
  | branchRadius
  | branchResolution
  deriving DecidableEq

namespace Setting

/-- The order in which settings are looked at. -/
def inOrder : List Setting :=
  [.maxIterations, .branchLength, .turnAngle, .profileResolution, .branchRadius, .branchResolution]

/-- What a setting may not be. -/
def OutOfRange (s : Settings Float) : Setting → Prop
  | .maxIterations => s.maxIterations = 0
  | .branchLength => s.branchLength ≤ 0 ∨ s.branchLength.isFinite = false
  | .turnAngle => s.turnAngle.isFinite = false
  | .profileResolution => s.profileResolution < 3
  | .branchRadius => s.branchRadius ≤ 0 ∨ s.branchRadius.isFinite = false
  | .branchResolution => s.branchResolution < 3

instance (s : Settings Float) : DecidablePred (OutOfRange s)
  | .maxIterations => inferInstanceAs (Decidable (s.maxIterations = 0))
  | .branchLength =>
      inferInstanceAs (Decidable (s.branchLength ≤ 0 ∨ s.branchLength.isFinite = false))
  | .turnAngle => inferInstanceAs (Decidable (s.turnAngle.isFinite = false))
  | .profileResolution => inferInstanceAs (Decidable (s.profileResolution < 3))
  | .branchRadius =>
      inferInstanceAs (Decidable (s.branchRadius ≤ 0 ∨ s.branchRadius.isFinite = false))
  | .branchResolution => inferInstanceAs (Decidable (s.branchResolution < 3))

/-- The fault of a setting that is out of range. -/
def fault (s : Settings Float) : Setting → SettingFault Float
  | .maxIterations => .iterations s.maxIterations
  | .branchLength => .branchLength s.branchLength
  | .turnAngle => .turnAngle s.turnAngle
  | .profileResolution => .resolution s.profileResolution
  | .branchRadius => .radius s.branchRadius
  | .branchResolution => .resolution s.branchResolution

end Setting

/-- What is no number is no size, for it is not finite, although it is not below zero. -/
theorem isSize_eq_false_iff {x : Float} : isSize x = false ↔ x ≤ 0 ∨ x.isFinite = false := by
  have asked : isSize x = (decide (0 < x) && x.isFinite) := rfl
  rw [asked]
  cases finite : x.isFinite with
  | false => simp
  | true =>
      have number : x.isNaN = false := Double.isNaN_of_isFinite finite
      rw [Bool.and_true, decide_eq_false_iff_not, Double.not_lt_iff (by decide) number]
      simp

namespace Settings

private theorem map_find?_cons {β γ : Type} {p : β → Prop} [DecidablePred p] (f : β → γ) (b : β)
    (rest : List β) : ((b :: rest).find? (p ·)).map f =
      if p b then some (f b) else (rest.find? (p ·)).map f := by
  by_cases here : p b <;> simp [here]

theorem fault?_eq_find? (s : Settings Float) :
    s.fault? = (Setting.inOrder.find? (Setting.OutOfRange s ·)).map (Setting.fault s) := by
  have iterations : s.maxIterations.toNat = 0 ↔ s.maxIterations = 0 :=
    UInt64.toNat_inj (b := 0)
  have size : ∀ x : Float, (!isSize x) = true ↔ x ≤ 0 ∨ x.isFinite = false := by
    intro x
    rw [Bool.not_eq_true', isSize_eq_false_iff]
  have angle : (!isFinite s.turnAngle) = true ↔ s.turnAngle.isFinite = false := by
    rw [Bool.not_eq_true']
    rfl
  have resolution : ∀ n : UInt64, n.toNat < minRingSize ↔ n < 3 := by
    intro n
    exact (UInt64.lt_iff_toNat_lt (b := 3)).symm
  simp only [Setting.inOrder, map_find?_cons, List.find?_nil, Option.map_none]
  exact if_congr iterations rfl <| if_congr (size _) rfl <| if_congr angle rfl <|
    if_congr (resolution _) rfl <| if_congr (size _) rfl <| if_congr (resolution _) rfl rfl

/-- Settings have the fault of the first setting that is out of range. -/
theorem fault?_eq_some_iff {s : Settings Float} {fault : SettingFault Float} :
    s.fault? = some fault ↔ ∃ before setting after,
      Setting.inOrder = before ++ setting :: after ∧ setting.OutOfRange s ∧
      (∀ earlier ∈ before, ¬ earlier.OutOfRange s) ∧ fault = setting.fault s := by
  rw [fault?_eq_find?, Option.map_eq_some_iff]
  simp only [List.find?_eq_some_iff_append, decide_eq_true_iff, Bool.not_eq_true',
    decide_eq_false_iff_not]
  constructor
  · rintro ⟨setting, ⟨wild, before, after, place, sound⟩, rfl⟩
    exact ⟨before, setting, after, place, wild, sound, rfl⟩
  · rintro ⟨before, setting, after, place, wild, sound, rfl⟩
    exact ⟨setting, ⟨wild, before, after, place, sound⟩, rfl⟩

variable {α : Type} [Scalar α]

/-- Only settings that are all in range are passed on, and unchanged. -/
theorem checked_eq_ok_iff {s made : Settings α} :
    s.checked = .ok made ↔ made = s ∧ made.fault? = none := by
  unfold checked
  cases fault : s.fault? with
  | some wild =>
      constructor
      · intro made
        cases made
      · rintro ⟨rfl, sound⟩
        rw [fault] at sound
        cases sound
  | none =>
      constructor
      · intro made
        cases made
        exact ⟨rfl, fault⟩
      · rintro ⟨rfl, _⟩
        rfl

end Settings

/-! ## Settings and turtles -/

namespace Turtle

section Generic

variable {α : Type} [Scalar α]

theorem exists_withTurnAngle_iff {t : Turtle α} {turnAngle : α} :
    (∃ next, t.withTurnAngle turnAngle = .ok next) ↔ isFinite turnAngle = true := by
  unfold withTurnAngle
  cases isFinite turnAngle <;> simp

theorem exists_withBranchLength_iff {t : Turtle α} {branchLength : α} :
    (∃ next, t.withBranchLength branchLength = .ok next) ↔ isSize branchLength = true := by
  unfold withBranchLength
  cases isSize branchLength <;> simp

theorem exists_withStyle_iff {t : Turtle α} {style : TubeStyle α} :
    (∃ next, t.withStyle style = .ok next) ↔ style.fault? = none := by
  unfold withStyle
  cases style.fault? <;> simp

/-- Settings are in range if their counts are and a turtle takes the others. -/
theorem inRange_iff (t : Turtle α) {s : Settings α} :
    s.fault? = none ↔ 0 < s.maxIterations ∧ 3 ≤ s.profileResolution ∧
      (∃ next, t.withTurnAngle s.turnAngle = .ok next) ∧
      (∃ next, t.withBranchLength s.branchLength = .ok next) ∧
      ∃ next, t.withStyle ⟨s.branchRadius, s.branchResolution⟩ = .ok next := by
  have some : 0 < s.maxIterations ↔ s.maxIterations.toNat ≠ 0 := by
    rw [UInt64.lt_iff_toNat_lt, ← Nat.pos_iff_ne_zero]
    rfl
  have enough : 3 ≤ s.profileResolution ↔ minRingSize ≤ s.profileResolution.toNat :=
    UInt64.le_iff_toNat_le (a := 3)
  rw [exists_withTurnAngle_iff, exists_withBranchLength_iff, exists_withStyle_iff,
    TubeStyle.fault?_eq_none_iff, Settings.fault?_eq_none_iff, some, enough]
  constructor
  · rintro ⟨iterations, length, angle, profile, radius, resolution⟩
    exact ⟨iterations, profile, angle, length, radius, resolution⟩
  · rintro ⟨iterations, profile, angle, length, radius, resolution⟩
    exact ⟨iterations, length, angle, profile, radius, resolution⟩

theorem make_eq_error {location tangent normal : Vec3 α} {failure : Failure α}
    (refused : make location tangent normal = .error failure) : failure = .noDirection := by
  rw [← failure?_eq_some_iff, failure?_make] at refused
  exact eq_of_lack refused

/-- A turtle is refused for its settings, before its directions are looked at, or else for these. -/
theorem ofSettings_eq_error_iff {location tangent normal : Vec3 α} {s : Settings α}
    {failure : Failure α} :
    ofSettings location tangent normal s = .error failure ↔
      (∃ fault, s.fault? = some fault ∧ failure = .settings fault) ∨
      (s.fault? = none ∧ make location tangent normal = .error failure) := by
  rw [← failure?_eq_some_iff, failure?_ofSettings, firstFailure_cons, firstFailure_cons,
    firstFailure_nil, Option.or_none, ← failure?_make location, ← failure?_eq_some_iff]
  cases fault : s.fault? with
  | some wild => simp [eq_comm]
  | none => simp

end Generic

/-- The check of settings takes what a turtle takes one by one, and tells the first setting that is
out of range. So a turtle with settings is refused for these or else for its directions, and
settings that were made are in range. -/
theorem settings_agree (s : Settings Float) (location tangent normal : Vec3 Float) :
    (∀ t : Turtle Float, s.fault? = none ↔
      0 < s.maxIterations ∧ 3 ≤ s.profileResolution ∧
      (∃ next, t.withTurnAngle s.turnAngle = .ok next) ∧
      (∃ next, t.withBranchLength s.branchLength = .ok next) ∧
      ∃ next, t.withStyle ⟨s.branchRadius, s.branchResolution⟩ = .ok next) ∧
    (∀ fault, s.fault? = some fault ↔ ∃ before setting after,
      Setting.inOrder = before ++ setting :: after ∧ setting.OutOfRange s ∧
      (∀ earlier ∈ before, ¬ earlier.OutOfRange s) ∧ fault = setting.fault s) ∧
    (∀ failure, ofSettings location tangent normal s = .error failure ↔
      (∃ fault, s.fault? = some fault ∧ failure = .settings fault) ∨
      (s.fault? = none ∧ (∃ refusal, make location tangent normal = .error refusal) ∧
        failure = .noDirection)) ∧
    (∀ maxIterations (branchLength turnAngle : Float) profileResolution made,
      Settings.make maxIterations branchLength turnAngle profileResolution = .ok made ↔
        made = { Settings.standard with
          maxIterations, branchLength, turnAngle, profileResolution } ∧ made.fault? = none) ∧
    ∀ branchRadius branchResolution made,
      s.withBranch branchRadius branchResolution = .ok made ↔
        made = { s with branchRadius, branchResolution } ∧ made.fault? = none := by
  refine ⟨fun t => inRange_iff t, fun _ => Settings.fault?_eq_some_iff, ?_,
    fun _ _ _ _ _ => Settings.checked_eq_ok_iff, fun _ _ _ => Settings.checked_eq_ok_iff⟩
  intro failure
  rw [ofSettings_eq_error_iff]
  refine or_congr_right (and_congr_right fun _ => ⟨fun refused => ?_, ?_⟩)
  · exact ⟨⟨failure, refused⟩, make_eq_error refused⟩
  · rintro ⟨⟨refusal, refused⟩, rfl⟩
    rw [refused, make_eq_error refused]

/-- Settings that are out of range but for the first. -/
def wreck : Settings Float := ⟨1, -0.0, 0 / 0, 2, -1 / 0, 0⟩

/-- Of all that is wrong with the settings and the directions, it is the length that is told. -/
theorem wreck_settings_agree :
    wreck.fault? = some (.branchLength (-0.0)) ∧
    ofSettings .origin .origin .origin wreck = .error (.settings (.branchLength (-0.0))) ∧
    (∃ refusal, make (.origin : Vec3 Float) .origin .origin = .error refusal) ∧
    wreck.withBranch 1 8 ≠ .ok { wreck with branchRadius := 1, branchResolution := 8 } := by
  obtain ⟨_, first, refused, _, sized⟩ := settings_agree wreck .origin .origin .origin
  have some : ¬ Setting.maxIterations.OutOfRange wreck := by decide +kernel
  have short : Setting.branchLength.OutOfRange wreck := by decide +kernel
  have told : wreck.fault? = .some (.branchLength (-0.0)) :=
    (first _).mpr ⟨[.maxIterations], .branchLength, _, rfl, short, by simpa using some, rfl⟩
  refine ⟨told, (refused _).mpr (.inl ⟨_, told, rfl⟩), ⟨.noDirection, by decide +kernel⟩, ?_⟩
  intro made
  exact absurd ((sized 1 8 _).mp made).2 (by decide +kernel)

end Turtle

end Tendril
