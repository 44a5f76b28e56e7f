import Tendril.Proofs.Host.Scene
import Tendril.Proofs.Plan.Growth
import Tendril.Proofs.Turtle.Fault

/-!
# Refusing a growth plan

A growth plan is carried out or it fails with the first of four checks that it does not pass: every
rule has an output, the settings are in range, the directions make a frame, and no symbol of the
word fails. The first is made before any iteration, so it does not matter whether the rule would
ever be applied. Hosts that take every mesh add no failure of their own.
-/

namespace Tendril

open Scalar

variable {α : Type} [Scalar α]

namespace GrowthPlan

/-- The first rule without outputs, whether or not its input occurs in a word. -/
def outputFault? (p : GrowthPlan α) : Option (Failure α) :=
  (p.rules.find? (·.outputs.isEmpty)).map fun d => .misuse (.noOutputs d.input)

/-- The first setting that is out of range. -/
def settingFault? (p : GrowthPlan α) : Option (SettingFault α) :=
  firstFailure [
    if isSize p.branchLength then none else some (.branchLength p.branchLength),
    if isFinite p.turnAngle then none else some (.turnAngle p.turnAngle),
    if isSize p.style.radius then none else some (.radius p.style.radius),
    if minRingSize ≤ p.style.resolution.toNat then none else some (.resolution p.style.resolution)]

/-- The settings that a plan leaves at their standards are in range. -/
theorem fault?_settings (p : GrowthPlan α) : p.settings.fault? = p.settingFault? := by
  have some : p.settings.maxIterations.toNat ≠ 0 :=
    (by decide : (UInt64.ofNat defaultIterations).toNat ≠ 0)
  have round : ¬ p.settings.profileResolution.toNat < minRingSize :=
    (by decide : ¬ (UInt64.ofNat defaultRingSize).toNat < minRingSize)
  rw [Settings.fault?, if_neg some, if_neg round]
  simp only [settings, settingFault?, firstFailure_cons, firstFailure_nil, Option.or_none]
  by_cases long : isSize p.branchLength
  · by_cases finite : isFinite p.turnAngle
    · by_cases thick : isSize p.style.radius
      · by_cases coarse : p.style.resolution.toNat < minRingSize
        · simp [long, finite, thick, coarse, Nat.not_le.mpr coarse]
        · simp [long, finite, thick, coarse, Nat.not_lt.mp coarse]
      · simp [long, finite, thick]
    · simp [long, finite]
  · simp [long]

variable {σ : Type} [WordSource σ]

omit [Scalar α] in
theorem failure?_expand (p : GrowthPlan α) (source : σ) :
    failure? (p.expand source) = p.outputFault? := by
  refine Option.ext fun failure => ?_
  rw [failure?_eq_some_iff, expand_eq_error_iff, grammar_eq_error_iff, outputFault?,
    Option.map_eq_some_iff]
  simp only [eq_comm]

theorem failure?_turtle (p : GrowthPlan α) :
    failure? p.turtle = firstFailure [p.settingFault?.map .settings,
      Frame.directionFault? p.tangent p.normal] := by
  rw [turtle, Turtle.failure?_ofSettings, fault?_settings]

/-- The fault of the first symbol that fails in the word of the plan. -/
def wordFault? (p : GrowthPlan α) (source : σ) : Option (Failure α) :=
  match p.turtle, p.expand source with
  | .ok t, .ok w => (Drawing.start t).fault? w
  | _, _ => none

/-- A word without turns and without brackets that close a branch has no fault. -/
theorem wordFault?_of_harmless {p : GrowthPlan α} {source : σ} {w : Word}
    (grown : p.expand source = .ok w) (harmless : ∀ symbol ∈ w,
      symbol = 'F' ∨ symbol = '[' ∨ Command.ofSymbol? symbol = none) :
    p.wordFault? source = none := by
  unfold wordFault?
  rw [grown]
  split
  case h_1 t _ _ same =>
    cases same
    rw [Option.eq_none_iff_forall_ne_some]
    intro failure stuck
    obtain ⟨u, symbol, v, parts, _, there⟩ := Drawing.fault?_eq_some_iff.mp stuck
    rw [Turtle.symbolFault?_harmless _ (harmless symbol (by simp [parts]))] at there
    cases there
  case h_2 => rfl

/-- The first check that a plan does not pass. -/
def fault? (p : GrowthPlan α) (source : σ) : Option (Failure α) :=
  firstFailure [p.outputFault?, p.settingFault?.map .settings,
    Frame.directionFault? p.tangent p.normal, p.wordFault? source]

/-- A plan that passes the other three checks is left to its word. -/
theorem fault?_eq_wordFault? {p : GrowthPlan α} (complete : p.outputFault? = none)
    (inRange : p.settingFault? = none) (square : Frame.directionFault? p.tangent p.normal = none)
    (source : σ) : p.fault? source = p.wordFault? source := by
  rw [fault?, complete, inRange, square]
  simp

theorem failure?_segments (p : GrowthPlan α) (source : σ) :
    failure? (p.segments source) = p.fault? source := by
  unfold segments
  rw [failure?_bind ((failure? p.turtle).or (p.wordFault? source)), failure?_expand,
    failure?_turtle]
  · simp [fault?, Option.or_assoc]
  · intro w grown
    refine failure?_bind _ fun t made => ?_
    have drawable := Turtle.fault?_style_of_ofSettings made
    rw [wordFault?, made, grown]
    refine Option.ext fun failure => ?_
    rw [failure?_eq_some_iff, Drawing.result_eq_error_iff, Turtle.draw_eq_after,
      Drawing.after_failure rfl drawable]

theorem failure?_submit {τ η : Type} {sink : Sink α τ η} (accepts : sink.Accepts)
    (p : GrowthPlan α) (source : σ) (s : τ) :
    failure? (p.submit source sink s).1 = p.fault? source := by
  unfold submit
  rw [← failure?_segments]
  cases p.segments source with
  | error failure => rfl
  | ok meshes => exact accepts.submit p.delivery meshes s

/-- None of the four checks is about points of different numbers. -/
theorem ne_mismatch_of_fault? {p : GrowthPlan α} {source : σ} {failure : Failure α}
    (refused : p.fault? source = some failure) (junction : Junction) (expected found : Nat) :
    failure ≠ .mismatch junction expected found := by
  rintro rfl
  have here := mem_of_firstFailure refused
  simp only [List.mem_cons, List.not_mem_nil, or_false] at here
  rcases here with dry | wild | lost | stuck
  · obtain ⟨_, _, cause⟩ := Option.map_eq_some_iff.mp dry.symm
    cases cause
  · obtain ⟨_, _, cause⟩ := Option.map_eq_some_iff.mp wild.symm
    cases cause
  · cases eq_of_lack lost.symm
  · unfold wordFault? at stuck
    split at stuck
    case h_1 =>
      obtain ⟨_, _, _, _, _, there⟩ := Drawing.fault?_eq_some_iff.mp stuck.symm
      rcases Turtle.symbolFault?_eq_some there with cause | cause <;> cases cause
    case h_2 => cases stuck

/-- A plan that is not carried out ends in the first of its checks that it does not pass, whether it
is drawn or handed to a scene or a flat list in any state. A word that fails does so at its first
symbol that has a fault, which steps ahead, pushes and symbols without meaning never have; and no
plan ends in lists of different lengths. -/
theorem refusal (p : GrowthPlan Float) (source : σ) :
    (∀ failure, p.segments source = .error failure ↔ p.fault? source = some failure) ∧
      (∀ (s : Scene Float) (failure : Failure Float),
        (p.submit source Scene.sink s).1 = .error failure ↔ p.fault? source = some failure) ∧
      (∀ (l : FlatList) (failure : Failure Float),
        (p.submit source FlatList.sink l).1 = .error failure ↔ p.fault? source = some failure) ∧
      (∀ t, p.turtle = .ok t →
        (∀ (w : Word) (failure : Failure Float), (t.draw w).failure = some failure ↔
          ∃ u symbol v, w = u ++ symbol :: v ∧ (t.draw u).failure = none ∧
            (t.draw u).turtle.symbolFault? symbol = some failure) ∧
        ∀ (u : Word) (symbol : Char),
          symbol = 'F' ∨ symbol = '[' ∨ Command.ofSymbol? symbol = none →
            (t.draw (u ++ [symbol])).failure = (t.draw u).failure) ∧
      ∀ junction expected found,
        p.segments source ≠ .error (.mismatch junction expected found) := by
  refine ⟨fun failure => ?_, fun s failure => ?_, fun l failure => ?_, fun t made => ?_, ?_⟩
  · rw [← failure?_eq_some_iff, failure?_segments]
  · rw [← failure?_eq_some_iff, failure?_submit Scene.sink_accepts]
  · rw [← failure?_eq_some_iff, failure?_submit FlatList.sink_accepts]
  · have drawable : t.style.fault? = none := Turtle.fault?_style_of_ofSettings made
    have fails : ∀ w, (t.draw w).failure = (Drawing.start t).fault? w := fun w =>
      Drawing.after_failure rfl drawable w
    refine ⟨fun w failure => ?_, fun u symbol harmless => ?_⟩
    · simp only [fails, Drawing.fault?_eq_some_iff]
      rfl
    · rw [fails, fails, Drawing.fault?_append, Drawing.fault?, Drawing.fault?,
        Turtle.symbolFault?_harmless _ harmless, Option.or_none, Option.or_none]
  · intro junction expected found failed
    rw [← failure?_eq_some_iff, failure?_segments] at failed
    exact ne_mismatch_of_fault? failed junction expected found rfl

/-- One bracket more is closed than was opened. -/
def dangling : GrowthPlan Float := { standard with seedWord := "[F]X]F".toList }

/-- Nothing is right: a symbol that never occurs has no outputs, the tubes have no radius, and there
is no way ahead. -/
def hopeless : GrowthPlan Float :=
  { dangling with rules := [⟨'Q', []⟩], style := ⟨0, 2⟩, tangent := .origin }

theorem dangling_refusal :
    dangling.segments (Script.ofList []) = .error .emptyStack ∧
      (dangling.submit (Script.ofList []) Scene.sink (.named "attic")).1 = .error .emptyStack ∧
      (dangling.submit (Script.ofList []) FlatList.sink .empty).1 = .error .emptyStack ∧
      (∃ t, dangling.turtle = .ok t ∧
        (t.draw "[F]F".toList).failure = (t.draw "[F]".toList).failure) ∧
      hopeless.segments (Script.ofList []) = .error (.misuse (.noOutputs 'Q')) := by
  have stuck : dangling.fault? (Script.ofList []) = some .emptyStack := by decide +kernel
  have dry : hopeless.fault? (Script.ofList []) = some (.misuse (.noOutputs 'Q')) := by
    decide +kernel
  obtain ⟨drawn, scene, list, turtle, _⟩ := refusal dangling (Script.ofList [])
  obtain ⟨t, made⟩ : ∃ t, dangling.turtle = .ok t := by
    rw [← failure?_eq_none_iff, failure?_turtle]
    decide +kernel
  exact ⟨(drawn _).mpr stuck, (scene _ _).mpr stuck, (list _ _).mpr stuck,
    ⟨t, made, (turtle t made).2 "[F]".toList 'F' (.inl rfl)⟩,
    ((refusal hopeless (Script.ofList [])).1 _).mpr dry⟩

end GrowthPlan

end Tendril
