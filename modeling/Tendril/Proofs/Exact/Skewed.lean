import Mathlib.LinearAlgebra.Matrix.NonsingularInverse
import Tendril.Proofs.Exact.Vector
import Tendril.Proofs.Turtle.Frames
import Tendril.Proofs.Turtle.Outcome

/-!
# Skewed frames

Directions that are not at right angles make a frame too, and its axes are brought back to length
one after each turn, by factors that need not be the same. What every turn keeps is that the axes
span a volume: turning two of them within their plane leaves the volume as it is, and lengthening an
axis multiplies it by a number that is not zero. Axes that span a volume are independent, so none of
them is the origin and the next turn can be made.
-/

namespace Tendril

open Scalar

namespace Vec3

theorem smul_origin (k : ℝ) : k • (origin : Vec3 ℝ) = origin := by
  ext <;> simp [origin]

theorem smul_ne_origin {k : ℝ} {a : Vec3 ℝ} (some : k ≠ 0) (long : a ≠ origin) :
    k • a ≠ origin := by
  intro short
  apply long
  ext
  · simpa [origin, some] using congrArg x short
  · simpa [origin, some] using congrArg y short
  · simpa [origin, some] using congrArg z short

theorem cross_smul_smul (a b : Vec3 ℝ) (k l : ℝ) :
    (k • a).cross (l • b) = (k * l) • a.cross b := by
  ext <;> simp only [cross, smul_x, smul_y, smul_z] <;> ring

theorem origin_cross (a : Vec3 ℝ) : origin.cross a = origin := by
  ext <;> simp [cross, origin]

theorem cross_origin (a : Vec3 ℝ) : a.cross origin = origin := by
  ext <;> simp [cross, origin]

theorem direction_origin : (origin : Vec3 ℝ).direction = .error .noDirection := by
  have nothing : ((origin : Vec3 ℝ).length == (zero : ℝ)) = true := by
    rw [zero_real]
    exact decide_eq_true (length_eq_zero_iff.mpr rfl)
  rw [direction, normalize?, nothing]
  rfl

theorem direction_eq_ok_iff {a d : Vec3 ℝ} :
    a.direction = .ok d ↔ a ≠ .origin ∧ d = a.length⁻¹ • a := by
  by_cases short : a = origin
  · rw [short, direction_origin]
    simp
  · rw [direction_of_ne_origin short]
    simp [short, eq_comm]

end Vec3

/-! ## Volumes -/

/-- The volume between three vectors, with a sign for the hand as which they stand. -/
noncomputable def volume (u v w : Vec3 ℝ) : ℝ := w.dot (u.cross v)

section Volume

variable (u v w : Vec3 ℝ) (k l : ℝ)

theorem volume_cycle : volume v w u = volume u v w := by
  simp only [volume, Vec3.dot, Vec3.cross]
  ring

theorem volume_swap : volume v u w = -volume u v w := by
  simp only [volume, Vec3.dot, Vec3.cross]
  ring

theorem volume_smul_smul : volume (k • u) (l • v) w = k * l * volume u v w := by
  simp only [volume, Vec3.dot, Vec3.cross, Vec3.smul_x, Vec3.smul_y, Vec3.smul_z]
  ring

/-- The volume stays when two of the vectors turn within their plane. -/
theorem volume_turn (angle : ℝ) :
    volume (cos angle • u + sin angle • v) (cos angle • v - sin angle • u) w = volume u v w := by
  have circle : cos angle ^ 2 + sin angle ^ 2 = 1 := Real.cos_sq_add_sin_sq angle
  have grown : volume (cos angle • u + sin angle • v) (cos angle • v - sin angle • u) w =
      (cos angle ^ 2 + sin angle ^ 2) * volume u v w := by
    simp only [volume, Vec3.dot, Vec3.cross, Vec3.add_x, Vec3.add_y, Vec3.add_z, Vec3.sub_x,
      Vec3.sub_y, Vec3.sub_z, Vec3.smul_x, Vec3.smul_y, Vec3.smul_z]
    ring
  rw [grown, circle, one_mul]

variable {u v w}

theorem ne_origin_of_volume (spans : volume u v w ≠ 0) : u ≠ .origin := by
  rintro rfl
  simp [volume, Vec3.dot, Vec3.cross, Vec3.origin] at spans

theorem inv_length_ne_zero {a : Vec3 ℝ} (long : a ≠ .origin) : a.length⁻¹ ≠ 0 :=
  inv_ne_zero (Vec3.length_eq_zero_iff.not.mpr long)

/-- Two vectors that span a volume with a third can be turned, and span one with it afterwards. -/
theorem turnPair_of_volume (spans : volume u v w ≠ 0) (angle : ℝ) :
    ∃ u' v', turnPair u v angle = .ok (u', v') ∧ volume u' v' w ≠ 0 := by
  have turned := volume_turn u v w angle
  set ahead := cos angle • u + sin angle • v
  set aside := cos angle • v - sin angle • u
  rw [← turned] at spans
  have first : ahead ≠ .origin := ne_origin_of_volume spans
  have second : aside ≠ .origin :=
    ne_origin_of_volume (v := w) (w := ahead) (by rwa [volume_cycle])
  refine ⟨ahead.length⁻¹ • ahead, aside.length⁻¹ • aside, ?_, ?_⟩
  · show (do let a ← ahead.direction; let b ← aside.direction; return (a, b)) = _
    rw [Vec3.direction_of_ne_origin first, Vec3.direction_of_ne_origin second]
    rfl
  · rw [volume_smul_smul]
    exact mul_ne_zero (mul_ne_zero (inv_length_ne_zero first) (inv_length_ne_zero second)) spans

end Volume

/-! ## Independent axes -/

/-- A vector as a row of numbers. -/
def Vec3.row (a : Vec3 ℝ) : Fin 3 → ℝ := ![a.x, a.y, a.z]

namespace Frame

/-- No axis is a combination of the others. -/
def Independent (f : Frame ℝ) : Prop :=
  LinearIndependent ℝ ![f.tangent.row, f.normal.row, f.binormal.row]

variable {f : Frame ℝ}

theorem independent_iff : f.Independent ↔ volume f.tangent f.normal f.binormal ≠ 0 := by
  have det : (Matrix.of ![f.tangent.row, f.normal.row, f.binormal.row]).det =
      volume f.tangent f.normal f.binormal := by
    simp [Matrix.det_fin_three, Vec3.row, volume, Vec3.dot, Vec3.cross]
    ring
  rw [← det, ← isUnit_iff_ne_zero, ← Matrix.isUnit_iff_isUnit_det,
    ← Matrix.linearIndependent_rows_iff_isUnit]
  rfl

theorem independent_make {location tangent normal : Vec3 ℝ}
    (made : make location tangent normal = .ok f) : f.Independent := by
  obtain ⟨ahead, up, _, _, _, across, rfl⟩ := make_eq_ok_iff.mp made
  obtain ⟨long, rfl⟩ := Vec3.direction_eq_ok_iff.mp across
  have size : volume ahead up ((ahead.cross up).length⁻¹ • ahead.cross up) =
      (ahead.cross up).length⁻¹ * (ahead.cross up).dot (ahead.cross up) := by
    simp only [volume, Vec3.dot, Vec3.smul_x, Vec3.smul_y, Vec3.smul_z]
    ring
  rw [independent_iff, size]
  exact mul_ne_zero (inv_length_ne_zero long) (Vec3.dot_self_eq_zero_iff.not.mpr long)

/-- Directions make a frame unless one is along the other. -/
theorem exists_make_iff (location tangent normal : Vec3 ℝ) :
    (∃ f, make location tangent normal = .ok f) ↔ tangent.cross normal ≠ .origin := by
  have stretched := Vec3.cross_smul_smul tangent normal tangent.length⁻¹ normal.length⁻¹
  constructor
  · rintro ⟨f, made⟩ flat
    obtain ⟨_, _, _, first, second, across, _⟩ := make_eq_ok_iff.mp made
    obtain ⟨_, rfl⟩ := Vec3.direction_eq_ok_iff.mp first
    obtain ⟨_, rfl⟩ := Vec3.direction_eq_ok_iff.mp second
    obtain ⟨long, _⟩ := Vec3.direction_eq_ok_iff.mp across
    rw [stretched, flat] at long
    exact long (Vec3.smul_origin _)
  · intro spans
    have ahead : tangent ≠ .origin := by
      rintro rfl
      exact spans (Vec3.origin_cross normal)
    have up : normal ≠ .origin := by
      rintro rfl
      exact spans (Vec3.cross_origin tangent)
    have apart : (tangent.length⁻¹ • tangent).cross (normal.length⁻¹ • normal) ≠ .origin := by
      rw [stretched]
      exact Vec3.smul_ne_origin
        (mul_ne_zero (inv_length_ne_zero ahead) (inv_length_ne_zero up)) spans
    exact ⟨_, make_eq_ok_iff.mpr ⟨_, _, _, Vec3.direction_of_ne_origin ahead,
      Vec3.direction_of_ne_origin up, Vec3.direction_of_ne_origin apart, rfl⟩⟩

/-- Whichever two axes are turned, they span a volume with the third. -/
theorem Independent.turn (independent : f.Independent) (axis : Axis) (angle : ℝ) :
    ∃ g, f.turn axis angle = .ok g ∧ g.Independent := by
  rw [independent_iff] at independent
  cases axis with
  | tangent =>
      rw [← volume_cycle] at independent
      obtain ⟨normal, binormal, turned, spans⟩ := turnPair_of_volume independent angle
      refine ⟨{ f with normal, binormal }, ?_, independent_iff.mpr ?_⟩
      · rw [Frame.turn, turned]
        rfl
      · rwa [← volume_cycle]
  | normal =>
      -- The axis aside comes before the one ahead, so the volume is one of the other hand.
      rw [← volume_cycle, ← volume_cycle, ← neg_ne_zero, ← volume_swap] at independent
      obtain ⟨tangent, binormal, turned, spans⟩ := turnPair_of_volume independent angle
      refine ⟨{ f with tangent, binormal }, ?_, independent_iff.mpr ?_⟩
      · rw [Frame.turn, turned]
        rfl
      · rwa [← volume_cycle, ← volume_cycle, ← neg_ne_zero, ← volume_swap]
  | binormal =>
      obtain ⟨tangent, normal, turned, spans⟩ := turnPair_of_volume independent angle
      refine ⟨{ f with tangent, normal }, ?_, independent_iff.mpr spans⟩
      rw [Frame.turn, turned]
      rfl

theorem keeps_independent : Keeps Independent where
  moved _ independent := independent
  turned independent turned := by
    obtain ⟨g, made, kept⟩ := independent.turn _ _
    rw [turned] at made
    cases made
    exact kept

end Frame

/-! ## Skewed turtles -/

namespace Turtle

theorem fault?_standard : (TubeStyle.standard : TubeStyle ℝ).fault? = none := by
  have thick : (0 : ℝ) < one / ofCount 10 := by
    have one : (one : ℝ) = 1 := Nat.cast_one
    have ten : (ofCount 10 : ℝ) = 10 := Nat.cast_ofNat
    rw [one, ten]
    norm_num
  have size : isSize (one / ofCount 10 : ℝ) = true := by
    show (decide ((zero : ℝ) < one / ofCount 10) && true) = true
    rw [zero_real, decide_eq_true thick]
    rfl
  exact TubeStyle.fault?_eq_none_iff.mpr ⟨size, by decide⟩

/-- However a turtle came about, its axes are independent, and so are those that it has saved. -/
theorem Reachable.independent {t : Turtle ℝ} (reachable : t.Reachable) :
    t.AllFrames Frame.Independent := by
  induction reachable with
  | make made =>
      obtain ⟨frame, framed, rfl⟩ := make_eq_ok_iff.mp made
      exact List.forall_mem_singleton.mpr (Frame.independent_make framed)
  | ofSettings made =>
      obtain ⟨frame, framed, rfl⟩ := ofSettings_eq_ok made
      exact List.forall_mem_singleton.mpr (Frame.independent_make framed)
  | withTurnAngle _ changed ih =>
      cases withTurnAngle_eq_ok changed
      exact ih
  | withBranchLength _ changed ih =>
      cases withBranchLength_eq_ok changed
      exact ih
  | withStyle _ changed ih =>
      cases withStyle_eq_ok changed
      exact ih
  | execute _ executed ih =>
      exact Frame.keeps_independent.effect ih (execute_eq_ok_iff.mp executed)

/-- A turtle with independent axes can make all turns that a word asks for. -/
theorem turnsThrough_of_independent {t : Turtle ℝ} (all : t.AllFrames Frame.Independent)
    (w : Word) : t.TurnsThrough w := by
  intro u symbol v axis sense _ _ _
  have here : (t.draw u).turtle.frame.Independent :=
    Frame.keeps_independent.after (d := .start t) all u _ List.mem_cons_self
  obtain ⟨frame, turned, _⟩ := here.turn axis ((t.draw u).turtle.angle sense)
  refine ⟨{ (t.draw u).turtle with frame }, ?_⟩
  rw [turn_eq, turned]
  rfl

/-- Whatever directions a turtle was made of, square or skewed, and whatever it has done since, all
its frames have independent axes and can be turned. So a word fails only at a bracket that closes
none. -/
theorem reachable_independent {t : Turtle ℝ} (reachable : t.Reachable) (w : Word) :
    (t.draw w).turtle.AllFrames
        (fun f => f.Independent ∧ ∀ axis angle, ∃ g, f.turn axis angle = .ok g) ∧
      ∀ failure, (t.draw w).failure = some failure ↔
        failure = .emptyStack ∧ Overcloses t.depth w := by
  have all := reachable.independent
  refine ⟨?_, fun failure => ?_⟩
  · intro f member
    have independent := Frame.keeps_independent.after (d := .start t) all w f member
    refine ⟨independent, fun axis angle => ?_⟩
    obtain ⟨g, turned, _⟩ := independent.turn axis angle
    exact ⟨g, turned⟩
  · exact failure_eq_some_iff (reachable.drawable_of_standard fault?_standard)
      (turnsThrough_of_independent all w)

/-- A turtle that holds up a direction at a slant, of another length than one, and turns by two
radians. -/
theorem leaner_independent : ∃ t next : Turtle ℝ,
    make ⟨1, 2, 3⟩ ⟨0, 0, 2⟩ ⟨3, 0, 4⟩ = .ok t ∧ (⟨0, 0, 2⟩ : Vec3 ℝ).dot ⟨3, 0, 4⟩ ≠ 0 ∧
      t.withTurnAngle 2 = .ok next ∧ next.Reachable ∧
      next.frame.Independent ∧
      (next.draw "[+F&/^]\\-F".toList).failure = none ∧
      (next.draw "[+]&]F".toList).failure = some .emptyStack := by
  have apart : (⟨0, 0, 2⟩ : Vec3 ℝ).cross ⟨3, 0, 4⟩ ≠ .origin := by
    simp [Vec3.cross, Vec3.origin]
  obtain ⟨frame, framed⟩ := (Frame.exists_make_iff ⟨1, 2, 3⟩ _ _).mpr apart
  obtain ⟨t, made⟩ : ∃ t, make ⟨1, 2, 3⟩ ⟨0, 0, 2⟩ ⟨3, 0, 4⟩ = .ok t :=
    ⟨_, make_eq_ok_iff.mpr ⟨frame, framed, rfl⟩⟩
  have turning : t.withTurnAngle 2 = .ok { t with turnAngle := 2 } := rfl
  have reachable := Reachable.withTurnAngle (.make made) turning
  have bare : ({ t with turnAngle := 2 } : Turtle ℝ).depth = 0 :=
    congrArg List.length (Built.make made).fresh.1
  have fails := (reachable_independent reachable "[+F&/^]\\-F".toList).2
  have stops := (reachable_independent reachable "[+]&]F".toList).2
  rw [bare] at fails stops
  refine ⟨t, _, made, by simp [Vec3.dot], turning, reachable, ?_, ?_, ?_⟩
  · exact ((reachable_independent reachable []).1 _ List.mem_cons_self).1
  · rw [Option.eq_none_iff_forall_ne_some]
    intro failure failed
    have overclosed := depthAfter?_eq_none_iff.mpr ((fails failure).mp failed).2
    exact absurd overclosed (by decide)
  · exact (stops _).mpr ⟨rfl, depthAfter?_eq_none_iff.mp (by decide)⟩

end Turtle

end Tendril
