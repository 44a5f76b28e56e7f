import Tendril.Proofs.Failure
import Tendril.Turtle.Frame

/-!
# When a frame can be had

Making a frame and turning one go through vectors that have to be normalized, and fail where one of
them has no direction. `directionFault?` and `turnFault?` say when that is; the place of a frame has
no part in it.
-/

namespace Tendril

open Scalar

variable {α : Type} [Scalar α]

namespace Frame

/-- Directions that make no frame: one of the two, or the one across both, has no direction. -/
def directionFault? (tangent normal : Vec3 α) : Option (Failure α) :=
  lack .noDirection do
    let tangent ← tangent.normalize?
    let normal ← normal.normalize?
    (tangent.cross normal).normalize?

theorem failure?_make (location tangent normal : Vec3 α) :
    failure? (make location tangent normal) = directionFault? tangent normal := by
  refine failure?_bind_elim fun tangent => ?_
  refine failure?_bind_elim fun normal => ?_
  rw [← Option.bind_fun_some (tangent.cross normal).normalize?]
  exact failure?_bind_elim fun binormal => rfl

theorem make_eq_ok_iff {location tangent normal : Vec3 α} {f : Frame α} :
    make location tangent normal = .ok f ↔ ∃ ahead up aside, tangent.direction = .ok ahead ∧
      normal.direction = .ok up ∧ (ahead.cross up).direction = .ok aside ∧
      f = ⟨location, ahead, up, aside⟩ := by
  simp only [make, bind_eq_ok_iff]
  constructor
  · rintro ⟨ahead, first, up, second, aside, third, finished⟩
    cases finished
    exact ⟨ahead, up, aside, first, second, third, rfl⟩
  · rintro ⟨ahead, up, aside, first, second, third, rfl⟩
    exact ⟨ahead, first, up, second, aside, third, rfl⟩

theorem make_location {location tangent normal : Vec3 α} {f : Frame α}
    (made : make location tangent normal = .ok f) : f.location = location := by
  obtain ⟨_, _, _, _, _, _, rfl⟩ := make_eq_ok_iff.mp made
  rfl

/-- The two directions that a turn moves. -/
def plane (f : Frame α) : Axis → Vec3 α × Vec3 α
  | .tangent => (f.normal, f.binormal)
  | .normal => (f.tangent, f.binormal)
  | .binormal => (f.tangent, f.normal)

/-- A turn after which one of the two directions that it moves is none. -/
def turnFault? (f : Frame α) (axis : Axis) (angle : α) : Option (Failure α) :=
  let (u, v) := f.plane axis
  lack .noDirection do
    let _ ← (cos angle • u + sin angle • v).normalize?
    (cos angle • v - sin angle • u).normalize?

end Frame

theorem failure?_turnPair (u v : Vec3 α) (angle : α) :
    failure? (turnPair u v angle) = lack .noDirection (do
      let _ ← (cos angle • u + sin angle • v).normalize?
      (cos angle • v - sin angle • u).normalize?) := by
  refine failure?_bind_elim fun turnedU => ?_
  rw [← Option.bind_fun_some (cos angle • v - sin angle • u).normalize?]
  exact failure?_bind_elim fun turnedV => rfl

theorem Frame.failure?_turn (f : Frame α) (axis : Axis) (angle : α) :
    failure? (f.turn axis angle) = f.turnFault? axis angle := by
  cases axis <;>
    · unfold turn turnFault?
      rw [failure?_bind none (fun _ _ => rfl), Option.or_none, failure?_turnPair]
      rfl

/-- A turn fails for want of a direction and for nothing else. -/
theorem Frame.turn_eq_error {f : Frame α} {axis : Axis} {angle : α} {failure : Failure α}
    (failed : f.turn axis angle = .error failure) : failure = .noDirection := by
  rw [← failure?_eq_some_iff, failure?_turn] at failed
  exact eq_of_lack failed

/-- Turning keeps the place. -/
theorem Frame.turn_location {f g : Frame α} {axis : Axis} {angle : α}
    (turned : f.turn axis angle = .ok g) : g.location = f.location := by
  cases axis <;>
    · simp only [turn, bind_eq_ok_iff] at turned
      obtain ⟨pair, _, finished⟩ := turned
      cases finished
      rfl

end Tendril
