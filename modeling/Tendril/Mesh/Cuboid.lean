import Tendril.Failure
import Tendril.Mesh.Basic

/-!
# Boxes

A box around the origin, made from the corners, edges and faces of the box that spans one unit to
either side on every axis.
-/

namespace Tendril

open Scalar

variable {α : Type} [Scalar α]

namespace Cuboid

/-- The corners of the unit box. -/
def corners : List (Vec3 α) :=
  [⟨one, one, -one⟩, ⟨one, -one, -one⟩, ⟨-one, -one, -one⟩, ⟨-one, one, -one⟩,
   ⟨one, one, one⟩, ⟨one, -one, one⟩, ⟨-one, -one, one⟩, ⟨-one, one, one⟩]

/-- The lower square, the upper square, and the uprights. -/
def edges : List Edge :=
  [⟨0, 1⟩, ⟨1, 2⟩, ⟨2, 3⟩, ⟨3, 0⟩, ⟨4, 5⟩, ⟨5, 6⟩, ⟨6, 7⟩, ⟨7, 4⟩, ⟨0, 4⟩, ⟨1, 5⟩, ⟨2, 6⟩, ⟨3, 7⟩]

def quads : List Quad :=
  [⟨0, 1, 2, 3⟩, ⟨4, 7, 6, 5⟩, ⟨0, 4, 5, 1⟩, ⟨1, 5, 6, 2⟩, ⟨2, 6, 7, 3⟩, ⟨4, 0, 3, 7⟩]

end Cuboid

/-- The box that spans `width` to either side on the first axis, `depth` on the second and
`height` on the third. -/
def cuboid (width height depth : α) : Except (Failure α) (Mesh α) :=
  if isSize width && isSize height && isSize depth then
    .ok {
      vertices := (Cuboid.corners.map fun c => ⟨c.x * width, c.y * depth, c.z * height⟩).toArray
      edges := Cuboid.edges.toArray
      quads := Cuboid.quads.toArray }
  else .error (.misuse (.boxSize width height depth))

end Tendril
