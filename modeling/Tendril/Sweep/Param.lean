import Tendril.Outline.Points

/-!
# Parameters of a sweep

What may change from iteration to iteration: a number, or the cross-section. A ramp is a number that
changes at an even rate and a profile a cross-section that may change from one outline into another;
both are plain data, and become parameters when a sweep is set up.
-/

namespace Tendril

open Scalar

variable {α : Type}

/-- A number for every iteration. -/
inductive Param (α : Type) where
  | constant (value : α)
  | varying (value : Nat → α)

namespace Param

/-- The number at iteration `n`. -/
def valueAt (p : Param α) (n : Nat) : α :=
  match p with
  | .constant value => value
  | .varying value => value n

def describe : Param Float → String
  | .constant value => s!"Constant({Layout.description.write value})"
  | .varying _ => "Function(..)"

end Param

/-- A cross-section for every iteration. -/
inductive Section (α : Type) where
  | fixed (points : List (Vec2 α))
  | varying (points : Nat → List (Vec2 α))

namespace Section

/-- The cross-section at iteration `n`. -/
def pointsAt (s : Section α) (n : Nat) : List (Vec2 α) :=
  match s with
  | .fixed points => points
  | .varying points => points n

def describe : Section α → String
  | .fixed points => s!"Fixed({points.length} points)"
  | .varying _ => "Function(..)"

end Section

variable [Scalar α]

/-- A number that stays, or grows by the same amount with every iteration. -/
inductive Ramp (α : Type) where
  | constant (value : α)
  | linear (offset slope : α)
  deriving DecidableEq

namespace Ramp

/-- A ramp that starts at zero. -/
def perIteration (slope : α) : Ramp α := .linear zero slope

/-- The number at iteration `n`. -/
def valueAt (r : Ramp α) (n : Nat) : α :=
  match r with
  | .constant value => value
  | .linear offset slope => offset + slope * ofCount n

def param (r : Ramp α) : Param α :=
  match r with
  | .constant value => .constant value
  | .linear .. => .varying r.valueAt

end Ramp

/-- An outline of a certain size, which may turn into another outline on the way. -/
structure Profile (α : Type) where
  outline : Outline
  radius : α
  resolution : UInt64
  morphTo : Option Outline
  deriving DecidableEq

namespace Profile

def standard : Profile α where
  outline := .circle
  radius := one
  resolution := UInt64.ofNat defaultRingSize
  morphTo := none

/-- The cross-section that turns into the second outline within `steps` iterations. Whatever can go
wrong does so here and not in the middle of a sweep. -/
def build (p : Profile α) (steps : Nat) : Except (Failure α) (Section α) := do
  let start ← p.outline.points p.radius p.resolution.toNat
  match p.morphTo with
  | none => return .fixed start
  | some target =>
      let finish ← target.points p.radius p.resolution.toNat
      let _ ← blend start finish 0 steps
      return .varying fun n => blendAt start finish (ofCount n / ofCount steps)

end Profile

end Tendril
