import Tendril.Proofs.Exact.Frame
import Tendril.Proofs.Exact.Skewed
import Tendril.Proofs.Turtle.Cylinder

/-!
# Right tubes

A turtle that is made of two directions at right angles draws from frames at right angles, whatever
it has done before. The points of both rings of a tube are placed at sines and cosines along the two
axes across the one ahead, so they lie on circles in the planes across the step, and a rung leads
from one ring to the other as the step does.
-/

namespace Tendril

open Scalar

/-- The two ends of a rung lie on the circles around the ends of a step, in the planes across it, and
the rung runs along the step. -/
structure Rung (start finish : Vec3 ℝ) (radius : ℝ) (top bottom : Vec3 ℝ) : Prop where
  length_top : (top - finish).length = radius
  length_bottom : (bottom - start).length = radius
  across_top : (top - finish).dot (finish - start) = 0
  across_bottom : (bottom - start).dot (finish - start) = 0
  along : top - bottom = finish - start

/-- A right circular tube around a step of some length, whose even points lie at the end and whose
odd ones lie at the start. -/
structure RightTube (start finish : Vec3 ℝ) (style : TubeStyle ℝ) (length : ℝ) (m : Mesh ℝ) :
    Prop where
  length : (finish - start).length = length
  count : m.vertexCount = 2 * style.resolution.toNat
  rungs : ∀ i < style.resolution.toNat, ∃ top bottom, m.vertices[2 * i]? = some top ∧
    m.vertices[2 * i + 1]? = some bottom ∧ Rung start finish style.radius top bottom

theorem isSize_iff_pos {x : ℝ} : isSize x = true ↔ 0 < x := by
  show (decide ((zero : ℝ) < x) && true) = true ↔ 0 < x
  rw [Bool.and_true, decide_eq_true_iff, zero_real]

theorem isSize_one : isSize (one : ℝ) = true := by
  rw [isSize_iff_pos, one_real]
  exact one_pos

namespace Frame.Orthonormal

variable {f : Frame ℝ}

theorem length_offset (orthonormal : f.Orthonormal) {style : TubeStyle ℝ}
    (thick : 0 ≤ style.radius) (i : Nat) :
    (style.offset f.normal f.binormal i).length = style.radius := by
  obtain ⟨angle, placed⟩ : ∃ angle : ℝ, style.offset f.normal f.binormal i =
      (style.radius * cos angle) • f.normal + (style.radius * sin angle) • f.binormal := by
    refine ⟨ofCount i * (two * pi / ofCount style.resolution.toNat), ?_⟩
    ext <;> simp only [TubeStyle.offset, Vec3.add_x, Vec3.add_y, Vec3.add_z, Vec3.smul_x,
      Vec3.smul_y, Vec3.smul_z] <;> ring
  have circle : (style.radius * cos angle) ^ 2 + (style.radius * sin angle) ^ 2 =
      style.radius ^ 2 := by
    have unit : cos angle ^ 2 + sin angle ^ 2 = 1 := Real.cos_sq_add_sin_sq angle
    rw [mul_pow, mul_pow, ← mul_add, unit, mul_one]
  rw [placed, (orthonormal_iff_triad.mp orthonormal).cycle.length_combine, circle,
    Real.sqrt_sq thick]

theorem offset_dot (orthonormal : f.Orthonormal) (style : TubeStyle ℝ) (i : Nat) (k : ℝ) :
    (style.offset f.normal f.binormal i).dot (k • f.tangent) = 0 := by
  have parted : ∀ r c s : ℝ, (r • (c • f.normal + s • f.binormal)).dot (k • f.tangent) =
      r * k * (c * f.tangent.dot f.normal + s * f.tangent.dot f.binormal) := by
    intro r c s
    simp only [Vec3.dot, Vec3.add_x, Vec3.add_y, Vec3.add_z, Vec3.smul_x, Vec3.smul_y,
      Vec3.smul_z]
    ring
  rw [TubeStyle.offset, parted, orthonormal.tangent_normal, orthonormal.tangent_binormal]
  ring

/-- A step ahead from a frame at right angles draws a right tube. -/
theorem rightTube (orthonormal : f.Orthonormal) {length : ℝ} (long : 0 ≤ length)
    {style : TubeStyle ℝ} {m : Mesh ℝ}
    (drawn : tube f.location (f.location + length • f.tangent) f.normal f.binormal style =
      .ok m) :
    RightTube f.location (f.location + length • f.tangent) style length m := by
  have drawable := TubeStyle.fault?_eq_none_iff.mp (tube_eq_ok_iff.mp drawn).1
  have thick : 0 ≤ style.radius := (isSize_iff_pos.mp drawable.1).le
  have step : f.location + length • f.tangent - f.location = length • f.tangent := by
    ext <;> simp
  refine ⟨?_, (tube_counts drawn).1, ?_⟩
  · have square : (length • f.tangent).dot (length • f.tangent) = length ^ 2 := by
      rw [Vec3.dot_smul_smul, Vec3.length_eq_one_iff.mp orthonormal.length_tangent]
      ring
    rw [step, Vec3.length, square]
    exact Real.sqrt_sq long
  · intro i inside
    obtain ⟨even, odd⟩ := tube_vertices drawn inside
    refine ⟨_, _, even, odd, ?_⟩
    have around : ∀ p v : Vec3 ℝ, p + v - p = v := by
      intro p v
      ext <;> simp
    refine ⟨?_, ?_, ?_, ?_, ?_⟩
    · rw [around, orthonormal.length_offset thick]
    · rw [around, orthonormal.length_offset thick]
    · rw [around, step, orthonormal.offset_dot]
    · rw [around, step, orthonormal.offset_dot]
    · ext <;> simp

end Frame.Orthonormal

/-- The steps ahead of a word stand one behind the other. -/
theorem exists_stroke {w : Word} {k : Nat} (few : k < w.count 'F') :
    ∃ u v, w = u ++ 'F' :: v ∧ u.count 'F' = k := by
  induction w generalizing k with
  | nil => simp at few
  | cons symbol w ih =>
      by_cases stroke : symbol = 'F'
      · subst stroke
        cases k with
        | zero => exact ⟨[], w, rfl, rfl⟩
        | succ k =>
            rw [List.count_cons_self] at few
            obtain ⟨u, v, rfl, count⟩ := ih (Nat.lt_of_succ_lt_succ few)
            exact ⟨'F' :: u, v, rfl, by rw [List.count_cons_self, count]⟩
      · rw [List.count_cons_of_ne stroke] at few
        obtain ⟨u, v, rfl, count⟩ := ih few
        exact ⟨symbol :: u, v, rfl, by rw [List.count_cons_of_ne stroke, count]⟩

namespace Turtle

/-- A step ahead leads one step ahead. -/
theorem location_draw_stroke {α : Type} [Scalar α] {t : Turtle α} {u : Word}
    (through : (t.draw (u ++ ['F'])).failure = none) :
    (t.draw (u ++ ['F'])).turtle.frame.location = (t.draw u).turtle.ahead := by
  have going := through_front through
  rw [draw_append] at through ⊢
  have stepped := (t.draw u).step_spec 'F'
  rw [Drawing.after_cons, Drawing.after_nil] at through ⊢
  generalize (t.draw u).step 'F' = next at stepped through ⊢
  cases stepped with
  | halted failed => cases going.symm.trans failed
  | ignored _ unknown => cases unknown
  | stopped _ _ _ => cases through
  | done _ known effect =>
      cases Option.some.inj known
      cases effect
      rfl

/-- The turtles that come of two directions at right angles, by changes of settings and by commands,
in any order. -/
inductive Upright : Turtle ℝ → Prop
  | built {location tangent normal : Vec3 ℝ} {t : Turtle ℝ}
      (built : Built location tangent normal t) (square : tangent.dot normal = 0) : Upright t
  | withTurnAngle {t next : Turtle ℝ} {turnAngle : ℝ} (upright : Upright t)
      (changed : t.withTurnAngle turnAngle = .ok next) : Upright next
  | withBranchLength {t next : Turtle ℝ} {branchLength : ℝ} (upright : Upright t)
      (changed : t.withBranchLength branchLength = .ok next) : Upright next
  | withStyle {t next : Turtle ℝ} {style : TubeStyle ℝ} (upright : Upright t)
      (changed : t.withStyle style = .ok next) : Upright next
  | execute {t next : Turtle ℝ} {command : Command} {segment : Option (Mesh ℝ)}
      (upright : Upright t) (executed : t.execute command = .ok (segment, next)) : Upright next

/-- New turtles come about. -/
theorem Built.reachable {α : Type} [Scalar α] {location tangent normal : Vec3 α} {t : Turtle α}
    (built : Built location tangent normal t) : t.Reachable := by
  induction built with
  | make made => exact .make made
  | ofSettings made => exact .ofSettings made
  | withTurnAngle _ changed ih => exact .withTurnAngle ih changed
  | withBranchLength _ changed ih => exact .withBranchLength ih changed
  | withStyle _ changed ih => exact .withStyle ih changed

/-- No way to come by a turtle leads to a step of no length. -/
theorem Reachable.branchLength_pos {t : Turtle ℝ} (reachable : t.Reachable) :
    0 < t.branchLength := by
  induction reachable with
  | make made =>
      obtain ⟨_, _, rfl⟩ := make_eq_ok_iff.mp made
      exact isSize_iff_pos.mp isSize_one
  | ofSettings made =>
      have inRange := fault?_of_ofSettings made
      obtain ⟨_, _, rfl⟩ := ofSettings_eq_ok made
      exact isSize_iff_pos.mp (checks_of_inRange inRange).2.1
  | withTurnAngle _ changed ih =>
      cases withTurnAngle_eq_ok changed
      exact ih
  | withBranchLength _ changed _ =>
      have size := isSize_of_withBranchLength changed
      cases withBranchLength_eq_ok changed
      exact isSize_iff_pos.mp size
  | withStyle _ changed ih =>
      cases withStyle_eq_ok changed
      exact ih
  | execute _ executed ih =>
      rw [(execute_eq_ok_iff.mp executed).settings.2.1]
      exact ih

/-- A word that does not close too many brackets gets through. -/
theorem Reachable.through {t : Turtle ℝ} (reachable : t.Reachable) {w : Word}
    (fits : ¬ Overcloses t.depth w) : (t.draw w).failure = none := by
  cases failed : (t.draw w).failure with
  | none => rfl
  | some failure =>
      have stuck := (failure_eq_some_iff (reachable.drawable_of_standard fault?_standard)
        (turnsThrough_of_independent reachable.independent w)).mp failed
      exact absurd stuck.2 fits

namespace Upright

variable {t : Turtle ℝ}

theorem reachable (upright : t.Upright) : t.Reachable := by
  induction upright with
  | built built _ => exact built.reachable
  | withTurnAngle _ changed ih => exact .withTurnAngle ih changed
  | withBranchLength _ changed ih => exact .withBranchLength ih changed
  | withStyle _ changed ih => exact .withStyle ih changed
  | execute _ executed ih => exact .execute ih executed

/-- All frames of such a turtle stand at right angles, whatever it has done. -/
theorem orthonormal (upright : t.Upright) : t.AllFrames Frame.Orthonormal := by
  induction upright with
  | @built location tangent normal t built square =>
      -- There is a frame, so neither of the two directions is the origin.
      have framed := built.framed
      obtain ⟨_, _, _, first, second, _, _⟩ := Frame.make_eq_ok_iff.mp framed
      have ahead := (Vec3.direction_eq_ok_iff.mp first).1
      have up := (Vec3.direction_eq_ok_iff.mp second).1
      obtain ⟨f, made, orthonormal⟩ := Frame.make_of_square ahead up square location
      cases framed.symm.trans made
      rw [AllFrames, built.fresh.1]
      exact List.forall_mem_singleton.mpr orthonormal
  | withTurnAngle _ changed ih =>
      cases withTurnAngle_eq_ok changed
      exact ih
  | withBranchLength _ changed ih =>
      cases withBranchLength_eq_ok changed
      exact ih
  | withStyle _ changed ih =>
      cases withStyle_eq_ok changed
      exact ih
  | execute _ executed ih =>
      exact Frame.keeps_orthonormal.effect ih (execute_eq_ok_iff.mp executed)

/-- The step ahead behind `u` draws a right tube from where `u` leads to where the step does. -/
theorem rightTube_of_stroke (upright : t.Upright) {u v : Word}
    (through : (t.draw (u ++ 'F' :: v)).failure = none) :
    ∃ m, (t.draw (u ++ 'F' :: v)).segments.toList[u.count 'F']? = some m ∧
      RightTube (t.draw u).turtle.frame.location (t.draw (u ++ ['F'])).turtle.frame.location
        t.style t.branchLength m := by
  obtain ⟨m, held, drawn⟩ := segment_of_stroke through
  refine ⟨m, held, ?_⟩
  -- The word may go on behind the step, but it got through that far.
  rw [← List.singleton_append, ← List.append_assoc] at through
  have here : (t.draw u).turtle.frame.Orthonormal :=
    Frame.keeps_orthonormal.after (d := .start t) upright.orthonormal u _ List.mem_cons_self
  have length : (t.draw u).turtle.branchLength = t.branchLength :=
    (Drawing.after_settings (.start t) u).2.1
  rw [location_draw_stroke (through_front through), ahead, length]
  rw [ahead, length] at drawn
  exact here.rightTube upright.reachable.branchLength_pos.le drawn

end Upright

/-- A turtle that is made of two directions at right angles, and has had its settings changed and
carried out commands in any order, draws a right circular tube for each step ahead of a word that
gets through, from where the turtle is to where it goes. -/
theorem draw_rightTubes {t : Turtle ℝ} (upright : t.Upright) {w : Word} {segments : List (Mesh ℝ)}
    (drawn : (t.draw w).result = .ok segments) :
    segments.length = w.count 'F' ∧
      ∀ k m, segments[k]? = some m → ∃ u v, w = u ++ 'F' :: v ∧ u.count 'F' = k ∧
        RightTube (t.draw u).turtle.frame.location (t.draw (u ++ ['F'])).turtle.frame.location
          t.style t.branchLength m := by
  have length := (draw_segments drawn).1
  refine ⟨length, ?_⟩
  intro k m held
  obtain ⟨through, rfl⟩ := Drawing.result_eq_ok_iff.mp drawn
  have inside := (List.getElem?_eq_some_iff.mp held).1
  rw [length] at inside
  obtain ⟨u, v, rfl, rfl⟩ := exists_stroke inside
  refine ⟨u, v, rfl, rfl, ?_⟩
  obtain ⟨m', there, right⟩ := upright.rightTube_of_stroke through
  cases held.symm.trans there
  exact right

/-- A turtle put up with directions of other lengths than one, that turns by one radian. -/
theorem exists_stroller : ∃ t next : Turtle ℝ, make ⟨1, 2, 3⟩ ⟨0, 0, 2⟩ ⟨3, 0, 0⟩ = .ok t ∧
    t.withTurnAngle 1 = .ok next ∧ next.Upright ∧ next.depth = 0 ∧ next.branchLength = 1 ∧
      next.style = .standard ∧ next.frame.location = ⟨1, 2, 3⟩ ∧ next.ahead = ⟨1, 2, 4⟩ := by
  have ahead : (⟨0, 0, 2⟩ : Vec3 ℝ) ≠ .origin := by simp [Vec3.origin]
  have up : (⟨3, 0, 0⟩ : Vec3 ℝ) ≠ .origin := by simp [Vec3.origin]
  have square : (⟨0, 0, 2⟩ : Vec3 ℝ).dot ⟨3, 0, 0⟩ = 0 := by simp [Vec3.dot]
  obtain ⟨f, framed, _⟩ := Frame.make_of_square ahead up square ⟨1, 2, 3⟩
  have made : make (⟨1, 2, 3⟩ : Vec3 ℝ) ⟨0, 0, 2⟩ ⟨3, 0, 0⟩ = .ok _ :=
    make_eq_ok_iff.mpr ⟨f, framed, rfl⟩
  refine ⟨_, _, made, rfl, .withTurnAngle (.built (.make made) square) rfl, rfl, one_real, rfl,
    Frame.make_location framed, ?_⟩
  obtain ⟨_, _, _, first, _, _, rfl⟩ := Frame.make_eq_ok_iff.mp framed
  have long : (⟨0, 0, 2⟩ : Vec3 ℝ).length = 2 := by
    have four : (⟨0, 0, 2⟩ : Vec3 ℝ).dot ⟨0, 0, 2⟩ = 2 ^ 2 := by
      simp only [Vec3.dot]
      norm_num
    rw [Vec3.length, four]
    exact Real.sqrt_sq two_pos.le
  rw [(Vec3.direction_eq_ok_iff.mp first).2, long]
  ext <;> simp [Turtle.ahead, defaultBranchLength]
  norm_num

/-- It goes one step straight on at first, and a second one to the side. -/
theorem stroller_draw_rightTubes : ∃ t next : Turtle ℝ,
    (make ⟨1, 2, 3⟩ ⟨0, 0, 2⟩ ⟨3, 0, 0⟩ = .ok t ∧ t.withTurnAngle 1 = .ok next ∧ next.Upright) ∧
      ∃ first second, (next.draw "F[+F&]/".toList).result = .ok [first, second] ∧
        RightTube ⟨1, 2, 3⟩ ⟨1, 2, 4⟩ .standard 1 first ∧
        ∃ start finish, RightTube start finish .standard 1 second := by
  obtain ⟨t, next, made, turning, upright, bare, long, styled, here, ahead⟩ := exists_stroller
  have through : (next.draw "F[+F&]/".toList).failure = none := by
    refine upright.reachable.through ?_
    rw [bare, ← depthAfter?_eq_none_iff]
    decide
  have drawn := Drawing.result_eq_ok_iff.mpr ⟨through, rfl⟩
  obtain ⟨length, tubes⟩ := draw_rightTubes upright drawn
  obtain ⟨first, second, both⟩ := List.length_eq_two.mp length
  rw [both] at tubes drawn
  rw [long, styled] at tubes
  refine ⟨t, next, ⟨made, turning, upright⟩, first, second, drawn, ?_, ?_⟩
  · obtain ⟨u, v, parted, nothing, right⟩ := tubes 0 first rfl
    cases u with
    | nil =>
        have stepped : (next.draw ([] ++ ['F'])).failure = none :=
          through_front (v := "[+F&]/".toList) through
        rw [location_draw_stroke stepped] at right
        rwa [← here, ← ahead]
    | cons symbol u =>
        have stroke : 'F' = symbol := (List.cons_eq_cons.mp parted).1
        rw [← stroke, List.count_cons_self] at nothing
        cases nothing
  · obtain ⟨_, _, _, _, right⟩ := tubes 1 second rfl
    exact ⟨_, _, right⟩

end Turtle

end Tendril
