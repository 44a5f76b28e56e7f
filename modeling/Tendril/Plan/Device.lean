import Tendril.Host.Report
import Tendril.Mesh.Cuboid
import Tendril.Plan.Json

/-!
# Plans for a graphics device

The entry points of a host that deals in texts and flat meshes: a plan goes in as JSON, or as the
few values of a preset, and flat meshes come out, or a report.
-/

namespace Tendril

namespace Device

/-- Reports a failure. -/
def reported {β : Type} (result : Except (Failure Float) β) : Except Report β :=
  result.mapError .ofFailure

/-- The sweep plan in a text. -/
def sweepPlan (text : String) : Except Report (SweepPlan Float) :=
  ((Json.read? text).bind SweepPlan.ofJson?).elim (.error .unreadable) .ok

/-- The growth plan in a text. -/
def growthPlan (text : String) : Except Report (GrowthPlan Float) :=
  ((Json.read? text).bind GrowthPlan.ofJson?).elim (.error .unreadable) .ok

def sweep (text : String) : Except Report FlatMesh := do
  let plan ← sweepPlan text
  return .ofMesh (← reported plan.mesh)

variable {σ : Type} [WordSource σ]

/-- The flat meshes of a growth plan; `source` is for a plan without a seed. -/
def growth (text : String) (source : σ) : Except Report FlatList := do
  let plan ← growthPlan text
  let (handles, list) := plan.submit source FlatList.sink .empty
  let _ ← reported handles
  return list

/-- The word that a growth plan comes to. -/
def expansion (text : String) (source : σ) : Except Report Word := do
  let plan ← growthPlan text
  reported (plan.expand source)

def shell : Except Report FlatMesh := do
  return .ofMesh (← reported (SweepPlan.shell : SweepPlan Float).mesh)

/-- The closed curve after a number of iterations, in one mesh. -/
def koch (iterations : UInt32) (source : σ) : Except Report FlatMesh := do
  let plan : GrowthPlan Float := .koch iterations.toUInt64
  return .ofMesh (.mergeAll (← reported (plan.segments source)))

def box (width height depth : Float) : Except Report FlatMesh := do
  return .ofMesh (← reported (cuboid width height depth))

end Device

end Tendril
