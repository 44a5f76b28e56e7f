import Tendril.Failure
import Tendril.Mesh.Basic

/-!
# Tubes

The hollow segment between two places: a ring of points around the end and the same ring around the
start, interleaved, so that even indices lie at the end and odd ones at the start.
-/

namespace Tendril

open Scalar

variable {α : Type} [Scalar α]

/-- How thick a tube is, and how many points go around it. -/
structure TubeStyle (α : Type) where
  radius : α
  resolution : UInt64
  deriving DecidableEq

namespace TubeStyle

def standard : TubeStyle α := ⟨defaultBranchRadius, UInt64.ofNat defaultBranchRingSize⟩

/-- What keeps a style from being drawn. -/
def fault? (style : TubeStyle α) : Option (Misuse α) :=
  if !isSize style.radius then some (.tubeRadius style.radius)
  else if style.resolution.toNat < minRingSize then some (.tubeResolution style.resolution.toNat)
  else none

/-- The vector from the axis of a tube to point `i` of its rings. -/
def offset (style : TubeStyle α) (normal binormal : Vec3 α) (i : Nat) : Vec3 α :=
  let step : α := two * pi / ofCount style.resolution.toNat
  let angle := ofCount i * step
  style.radius • (cos angle • normal + sin angle • binormal)

end TubeStyle

namespace Mesh

/-- The rung at step `i` around a tube, and the sides that lead on from its two ends. -/
def tubeEdges (resolution i : Nat) : List Edge :=
  let bottom := 2 * i
  let nextBottom := (bottom + 2) % (2 * resolution)
  let nextTop := (bottom + 3) % (2 * resolution)
  [⟨UInt32.ofNat bottom, UInt32.ofNat (bottom + 1)⟩,
   ⟨UInt32.ofNat bottom, UInt32.ofNat nextBottom⟩,
   ⟨UInt32.ofNat (bottom + 1), UInt32.ofNat nextTop⟩]

/-- The face between the rung at step `i` and the next. -/
def tubeQuad (resolution i : Nat) : Quad :=
  let bottom := 2 * i
  let nextBottom := (bottom + 2) % (2 * resolution)
  let nextTop := (bottom + 3) % (2 * resolution)
  ⟨UInt32.ofNat bottom, UInt32.ofNat nextBottom, UInt32.ofNat nextTop, UInt32.ofNat (bottom + 1)⟩

end Mesh

/-- The tube from `start` to `finish` in a drawable style. -/
def tube (start finish normal binormal : Vec3 α) (style : TubeStyle α) :
    Except (Failure α) (Mesh α) :=
  match style.fault? with
  | some cause => .error (.misuse cause)
  | none =>
      let steps := List.range style.resolution.toNat
      .ok {
        vertices := (steps.flatMap fun i =>
          let offset := style.offset normal binormal i
          [finish + offset, start + offset]).toArray
        edges := (steps.flatMap (Mesh.tubeEdges style.resolution.toNat)).toArray
        quads := (steps.map (Mesh.tubeQuad style.resolution.toNat)).toArray }

end Tendril
