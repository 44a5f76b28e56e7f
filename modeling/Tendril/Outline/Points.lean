import Tendril.Failure

/-!
# Points on outlines

A full turn, or half of one, in equal steps. The circle and the half oval end where a step lands on
the closing point, so they have one point more than their resolution; the square does not repeat
its first corner. On the square the distance of a point follows from the angle it makes with the
middle of its side.
-/

namespace Tendril

open Scalar

variable {α : Type} [Scalar α]

namespace Outline

/-- A full turn around the origin at distance `radius`. -/
def circlePoints (radius : α) (n : Nat) : List (Vec2 α) :=
  let step : α := two * pi / ofCount n
  (List.range (n + 1)).map fun i => .ofPolar radius (ofCount i * step)

/-- Half a turn around an oval that is twice as high as it is wide. -/
def semiOvalPoints (radius : α) (n : Nat) : List (Vec2 α) :=
  let step : α := pi / ofCount n
  (List.range n).map (fun i =>
      let angle : α := ofCount i * step
      radius • (⟨cos angle, two * sin angle⟩ : Vec2 α))
    ++ [⟨-radius, zero⟩]

/-- The side of a square, of four, that point `i` of `n` lies on. -/
def squareSide (n i : Nat) : Nat := i * 4 / n

/-- A full turn around a square whose corners have distance `radius` from the origin. -/
def squarePoints (radius : α) (n : Nat) : List (Vec2 α) :=
  let step : α := two * pi / ofCount n
  (List.range n).map fun i =>
    let angle : α := ofCount i * step
    let middle := angle - ofCount (squareSide n i) * (pi / two) - pi / ofCount 4
    .ofPolar (radius / sqrt two / cos middle) angle

/-- The points of an outline, for a resolution that encloses an area. -/
def points (outline : Outline) (radius : α) (n : Nat) : Except (Failure α) (List (Vec2 α)) :=
  if n < minRingSize then .error (.misuse (.coarseOutline outline n))
  else .ok <| match outline with
    | .circle => circlePoints radius n
    | .semiOval => semiOvalPoints radius n
    | .square => squarePoints radius n

end Outline

/-- The list that lies a fraction `t` of the way from one list of points to another. -/
def blendAt (start finish : List (Vec2 α)) (t : α) : List (Vec2 α) :=
  start.zipWith (fun s e => s + t • (e - s)) finish

/-- The list that `n` of `steps` steps lead to, from one list of points to another as long. -/
def blend (start finish : List (Vec2 α)) (n steps : Nat) : Except (Failure α) (List (Vec2 α)) :=
  if start.length ≠ finish.length then .error (.mismatch .blend start.length finish.length)
  else if steps = 0 then .error (.misuse .noBlendSteps)
  else .ok (blendAt start finish (ofCount n / ofCount steps))

end Tendril
