import Tendril.Sweep.Param

/-!
# Coil axes

A line in space with a frame that turns around it. At every iteration the axis says where the next
ring goes: how far along the line, how far from it, in which direction, how large, and of what
shape. All of this depends on the iteration number alone.
-/

namespace Tendril

open Scalar

variable {α : Type} [Scalar α]

/-- A line with a frame across it, and the parameters of the rings around it. -/
structure CoilAxis (α : Type) where
  start : Vec3 α
  tangent : Vec3 α
  normal : Vec3 α
  binormal : Vec3 α
  displacement : Param α
  coilingRate : Param α
  coilingRadius : Param α
  scaling : Param α
  crossSection : Section α
  maxIterations : Nat
  iteration : Nat

namespace CoilAxis

/-- An axis at iteration zero. The normal loses its part along the tangent. -/
def make (start tangent normal : Vec3 α) (crossSection : Section α) (maxIterations : Nat) :
    Except (Failure α) (CoilAxis α) :=
  if maxIterations = 0 then .error (.misuse .noIterations)
  else do
    let tangent ← tangent.direction
    let along ← normal.projection tangent
    let normal ← (normal - along).direction
    let binormal ← (normal.cross tangent).direction
    return {
      start, tangent, normal, binormal, crossSection, maxIterations
      displacement := .constant zero
      coilingRate := .constant zero
      coilingRadius := .constant zero
      scaling := .constant one
      iteration := 0 }

/-- The point of the axis that the rings of iteration `n` lie around. -/
def positionAt (axis : CoilAxis α) (n : Nat) : Vec3 α :=
  axis.start + axis.displacement.valueAt n • axis.tangent

/-- The direction in which the ring of iteration `n` leaves the axis. -/
def normalAt (axis : CoilAxis α) (n : Nat) : Vec3 α :=
  let angle := axis.coilingRate.valueAt n
  cos angle • axis.normal + sin angle • axis.binormal

/-- The centre of the ring of iteration `n`. -/
def centreAt (axis : CoilAxis α) (n : Nat) : Vec3 α :=
  axis.positionAt n + axis.coilingRadius.valueAt n • axis.normalAt n

/-- Where a point of a cross-section lies in space: the first coordinate counts along the normal,
the second along the tangent. -/
def place (centre normal tangent : Vec3 α) (scale : α) (point : Vec2 α) : Vec3 α :=
  let p := scale • point
  centre + p.x • normal + p.y • tangent

/-- The ring of iteration `n`. -/
def ringAt (axis : CoilAxis α) (n : Nat) : List (Vec3 α) :=
  (axis.crossSection.pointsAt n).map
    (place (axis.centreAt n) (axis.normalAt n) axis.tangent (axis.scaling.valueAt n))

/-- Goes on to the next iteration. -/
def advance (axis : CoilAxis α) : CoilAxis α := { axis with iteration := axis.iteration + 1 }

/-- Whether the current iteration has a ring. -/
def isOpen (axis : CoilAxis α) : Bool := axis.iteration < axis.maxIterations

def reset (axis : CoilAxis α) : CoilAxis α := { axis with iteration := 0 }

end CoilAxis

end Tendril
