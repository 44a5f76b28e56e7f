import Tendril.Host.Sink
import Tendril.Sweep.Tube

/-!
# Sweep plans

A whole sweep as a value: where the axis lies, how its parameters run, and what shape is swept.
-/

namespace Tendril

open Scalar

variable {α : Type} [Scalar α]

/-- A sweep written down. Rings stand at the iterations from one up to, not including, the last. -/
structure SweepPlan (α : Type) where
  start : Vec3 α
  tangent : Vec3 α
  normal : Vec3 α
  maxIterations : UInt64
  displacement : Ramp α
  coilingRate : Ramp α
  coilingRadius : Ramp α
  scaling : Ramp α
  profile : Profile α
  deriving DecidableEq

namespace SweepPlan

/-- A straight tube along the third axis. -/
def standard : SweepPlan α where
  start := .origin
  tangent := .unitZ
  normal := .unitX
  maxIterations := UInt64.ofNat defaultIterations
  displacement := .constant zero
  coilingRate := .constant zero
  coilingRadius := .constant zero
  scaling := .constant one
  profile := .standard

/-- A spiral shell: half an oval that grows while it coils, ten degrees a ring. -/
def shell : SweepPlan α where
  start := .origin
  tangent := .unitZ
  normal := .unitX
  maxIterations := 20
  displacement := .constant zero
  coilingRate := .perIteration (pi / ofCount 18)
  coilingRadius := .constant (ofCount 10)
  scaling := .perIteration (one / ofCount 4)
  profile := { outline := .semiOval, radius := one, resolution := 20, morphTo := none }

/-- The axis that the plan describes, at iteration zero. -/
def axis (p : SweepPlan α) : Except (Failure α) (CoilAxis α) := do
  let crossSection ← p.profile.build p.maxIterations.toNat
  let axis ← CoilAxis.make p.start p.tangent p.normal crossSection p.maxIterations.toNat
  return { axis with
    displacement := p.displacement.param
    coilingRate := p.coilingRate.param
    coilingRadius := p.coilingRadius.param
    scaling := p.scaling.param }

/-- The mesh that the plan describes. -/
def mesh (p : SweepPlan α) : Except (Failure α) (Mesh α) := do
  let axis ← p.axis
  axis.sweep.1

/-- Hands the mesh to a sink; a plan that cannot be carried out leaves the sink alone. -/
def submit {σ η : Type} (p : SweepPlan α) (sink : Sink α σ η) (s : σ) :
    Except (Failure α) η × σ :=
  match p.mesh with
  | .error failure => (.error failure, s)
  | .ok m => sink.create m s

end SweepPlan

end Tendril
