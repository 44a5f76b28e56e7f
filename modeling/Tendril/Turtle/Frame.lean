import Tendril.Failure

/-!
# Frames

A place in space with three directions. A rotation turns two of the directions within the plane they
span and leaves the third alone; both are brought back to length one, so a frame that was given
skewed stays skewed.
-/

namespace Tendril

open Scalar

variable {α : Type} [Scalar α]

/-- A place with the directions ahead, up and aside. -/
structure Frame (α : Type) where
  location : Vec3 α
  tangent : Vec3 α
  normal : Vec3 α
  binormal : Vec3 α
  deriving DecidableEq

/-- A direction of a frame, as something to turn about. -/
inductive Axis where
  | tangent
  | normal
  | binormal
  deriving DecidableEq, Repr

/-- Turns two directions by an angle within the plane that they span. -/
def turnPair (u v : Vec3 α) (angle : α) : Except (Failure α) (Vec3 α × Vec3 α) := do
  let turnedU ← (cos angle • u + sin angle • v).direction
  let turnedV ← (cos angle • v - sin angle • u).direction
  return (turnedU, turnedV)

namespace Frame

/-- A frame from the directions ahead and up; the one aside is across both. -/
def make (location tangent normal : Vec3 α) : Except (Failure α) (Frame α) := do
  let tangent ← tangent.direction
  let normal ← normal.direction
  let binormal ← (tangent.cross normal).direction
  return { location, tangent, normal, binormal }

/-- Turns the frame about one of its directions. -/
def turn (f : Frame α) (axis : Axis) (angle : α) : Except (Failure α) (Frame α) :=
  match axis with
  | .tangent => do
      let (normal, binormal) ← turnPair f.normal f.binormal angle
      return { f with normal, binormal }
  | .normal => do
      let (tangent, binormal) ← turnPair f.tangent f.binormal angle
      return { f with tangent, binormal }
  | .binormal => do
      let (tangent, normal) ← turnPair f.tangent f.normal angle
      return { f with tangent, normal }

end Frame

end Tendril
