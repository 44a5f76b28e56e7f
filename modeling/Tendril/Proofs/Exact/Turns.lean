import Tendril.Proofs.Exact.Frame

/-!
# Turns about one axis

Turning an orthonormal frame twice about an axis is turning it once by both angles together: no
length has to be brought back in between, and the laws of sines and cosines do the rest. A turtle
that reads nothing but turns about one axis therefore ends with a single one, by as many turn angles
as it has turned more often one way than the other, in whatever order it did so.
-/

namespace Tendril

open Scalar

section Plane

variable (u v : Vec3 ℝ) (a b : ℝ)

private theorem cos_sum : cos (a + b) = cos a * cos b - sin a * sin b := Real.cos_add a b

private theorem sin_sum : sin (a + b) = sin a * cos b + cos a * sin b := Real.sin_add a b

theorem turn_first :
    cos b • (cos a • u + sin a • v) + sin b • (cos a • v - sin a • u) =
      cos (a + b) • u + sin (a + b) • v := by
  rw [cos_sum, sin_sum]
  ext <;> simp only [Vec3.add_x, Vec3.add_y, Vec3.add_z, Vec3.sub_x, Vec3.sub_y, Vec3.sub_z,
    Vec3.smul_x, Vec3.smul_y, Vec3.smul_z] <;> ring

theorem turn_second :
    cos b • (cos a • v - sin a • u) - sin b • (cos a • u + sin a • v) =
      cos (a + b) • v - sin (a + b) • u := by
  rw [cos_sum, sin_sum]
  ext <;> simp only [Vec3.add_x, Vec3.add_y, Vec3.add_z, Vec3.sub_x, Vec3.sub_y, Vec3.sub_z,
    Vec3.smul_x, Vec3.smul_y, Vec3.smul_z] <;> ring

private theorem cos_none : cos (0 : ℝ) = 1 := Real.cos_zero

private theorem sin_none : sin (0 : ℝ) = 0 := Real.sin_zero

theorem turn_first_zero : cos (0 : ℝ) • u + sin (0 : ℝ) • v = u := by
  rw [cos_none, sin_none]
  ext <;> simp

theorem turn_second_zero : cos (0 : ℝ) • v - sin (0 : ℝ) • u = v := by
  rw [cos_none, sin_none]
  ext <;> simp

end Plane

namespace Frame

theorem rotated_rotated (f : Frame ℝ) (axis : Axis) (a b : ℝ) :
    (f.rotated axis a).rotated axis b = f.rotated axis (a + b) := by
  cases axis <;> simp only [rotated, turn_first, turn_second]

theorem rotated_zero (f : Frame ℝ) (axis : Axis) : f.rotated axis 0 = f := by
  cases axis <;> simp only [rotated, turn_first_zero, turn_second_zero]

end Frame

/-! ## Words of turns -/

/-- The way of a turn as a number. -/
def Sense.sign : Sense → ℝ
  | .positive => 1
  | .negative => -1

theorem Turtle.angle_eq_sign_mul (t : Turtle ℝ) (sense : Sense) :
    t.angle sense = sense.sign * t.turnAngle := by
  cases sense with
  | positive => exact (one_mul _).symm
  | negative => exact (neg_one_mul _).symm

/-- How many more turns about an axis a word makes one way than the other. -/
def netTurns (axis : Axis) (w : Word) : ℝ :=
  w.count (Command.turn axis .positive).symbol - w.count (Command.turn axis .negative).symbol

/-- The word has no symbols but the two that turn about an axis. -/
def TurnsOnly (axis : Axis) (w : Word) : Prop :=
  ∀ symbol ∈ w, symbol = (Command.turn axis .positive).symbol ∨
    symbol = (Command.turn axis .negative).symbol

instance (axis : Axis) (w : Word) : Decidable (TurnsOnly axis w) := List.decidableBAll _ w

theorem netTurns_cons (axis : Axis) (sense : Sense) (w : Word) :
    netTurns axis ((Command.turn axis sense).symbol :: w) = sense.sign + netTurns axis w := by
  have apart : (Command.turn axis .positive).symbol ≠ (Command.turn axis .negative).symbol := by
    cases axis <;> decide
  unfold netTurns
  cases sense with
  | positive =>
      rw [List.count_cons_self, List.count_cons_of_ne apart, Nat.cast_succ, Sense.sign]
      ring
  | negative =>
      rw [List.count_cons_self, List.count_cons_of_ne apart.symm, Nat.cast_succ, Sense.sign]
      ring

namespace Drawing

/-- A symbol that turns an orthonormal frame does so and nothing else. -/
theorem step_turn {t : Turtle ℝ} (orthonormal : t.frame.Orthonormal) (axis : Axis) (sense : Sense)
    (segments : Array (Mesh ℝ)) :
    Drawing.step ⟨t, segments, none⟩ (Command.turn axis sense).symbol =
      ⟨{ t with frame := t.frame.rotated axis (sense.sign * t.turnAngle) }, segments, none⟩ := by
  have known : Command.ofSymbol? (Command.turn axis sense).symbol = some (.turn axis sense) :=
    Command.ofSymbol?_eq_some_iff.mpr rfl
  have turned := orthonormal.turn_eq_ok axis (t.angle sense)
  rw [← t.angle_eq_sign_mul]
  have stepped : Drawing.Step ⟨t, segments, none⟩ _ _ := .done rfl known (.turn turned)
  exact stepped.step_eq

/-- A word of turns about one axis comes to a single one. -/
theorem after_turns {t : Turtle ℝ} (orthonormal : t.frame.Orthonormal) {axis : Axis} {w : Word}
    (only : TurnsOnly axis w) (segments : Array (Mesh ℝ)) :
    (⟨t, segments, none⟩ : Drawing ℝ).after w =
      ⟨{ t with frame := t.frame.rotated axis (netTurns axis w * t.turnAngle) },
        segments, none⟩ := by
  induction w generalizing t with
  | nil =>
      have nothing : netTurns axis [] * t.turnAngle = 0 := by simp [netTurns]
      rw [after_nil, nothing, Frame.rotated_zero]
  | cons symbol w ih =>
      obtain ⟨either, rest⟩ := List.forall_mem_cons.mp only
      obtain ⟨sense, rfl⟩ : ∃ sense, symbol = (Command.turn axis sense).symbol :=
        either.elim (fun positive => ⟨_, positive⟩) (fun negative => ⟨_, negative⟩)
      rw [after_cons, step_turn orthonormal, ih (orthonormal.rotated _ _) rest]
      show Drawing.mk { t with frame := _ } _ _ = _
      rw [Frame.rotated_rotated, netTurns_cons, add_mul]

end Drawing

namespace Turtle

/-- Turns of an orthonormal frame about one axis add up. So a turtle that reads only such turns
makes one by as many turn angles as remain when they are set off against each other, and is as it
was when none remain. -/
theorem turns_add {f : Frame ℝ} (orthonormal : f.Orthonormal) (axis : Axis) :
    (∀ a b, ∃ g h, f.turn axis a = .ok g ∧ g.turn axis b = .ok h ∧ f.turn axis (a + b) = .ok h) ∧
      ∀ (t : Turtle ℝ) (w : Word), t.frame = f → TurnsOnly axis w →
        (∃ g, f.turn axis (netTurns axis w * t.turnAngle) = .ok g ∧
          t.draw w = ⟨{ t with frame := g }, #[], none⟩) ∧
        (w.count (Command.turn axis .positive).symbol =
          w.count (Command.turn axis .negative).symbol → t.draw w = ⟨t, #[], none⟩) := by
  constructor
  · intro a b
    refine ⟨_, _, orthonormal.turn_eq_ok axis a, (orthonormal.rotated axis a).turn_eq_ok axis b, ?_⟩
    rw [Frame.rotated_rotated]
    exact orthonormal.turn_eq_ok axis (a + b)
  · rintro t w rfl only
    have drawn : t.draw w = _ := Drawing.after_turns orthonormal only #[]
    refine ⟨⟨_, orthonormal.turn_eq_ok axis _, drawn⟩, fun evenly => ?_⟩
    have none : netTurns axis w * t.turnAngle = 0 := by
      rw [netTurns, evenly, sub_self, zero_mul]
    rw [drawn, none, Frame.rotated_zero]

/-- A turtle that turns by one radian at a time. -/
noncomputable def dancer : Turtle ℝ :=
  ⟨⟨⟨1, 2, 3⟩, ⟨1, 0, 0⟩, ⟨0, 1, 0⟩, ⟨0, 0, 1⟩⟩, [], 1, 1, ⟨1, 3⟩⟩

theorem dancer_turns_add :
    dancer.frame.Orthonormal ∧
      (∃ g, dancer.frame.turn .normal 1 = .ok g ∧
        dancer.draw "&^&&^".toList = ⟨{ dancer with frame := g }, #[], none⟩) ∧
      dancer.draw "&^^&".toList = ⟨dancer, #[], none⟩ := by
  have orthonormal : dancer.frame.Orthonormal := by
    rw [Frame.orthonormal_iff_triad]
    refine ⟨?_, ?_, ?_, ?_⟩ <;> simp [dancer, Vec3.dot, Vec3.cross]
  obtain ⟨_, words⟩ := turns_add orthonormal .normal
  obtain ⟨⟨g, turned, drawn⟩, _⟩ := words dancer "&^&&^".toList rfl (by decide)
  obtain ⟨_, restored⟩ := words dancer "&^^&".toList rfl (by decide)
  have once : netTurns .normal "&^&&^".toList * dancer.turnAngle = 1 := by
    simp [netTurns, dancer, Command.symbol]
    norm_num
  rw [once] at turned
  exact ⟨orthonormal, ⟨g, turned, drawn⟩, restored (by decide)⟩

end Turtle

end Tendril
