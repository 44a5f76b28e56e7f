import Tendril.Mesh.Basic

/-!
# Bounding boxes

The least box with sides along the axes that holds every point of a mesh. A coordinate that is no
number counts for nothing, unless all of them are.
-/

namespace Tendril

variable {α : Type} [Scalar α]

/-- A box with sides along the axes, given by two opposite corners. -/
structure Bounds (α : Type) where
  low : Vec3 α
  high : Vec3 α

namespace Bounds

/-- The box of a single point. -/
def point (p : Vec3 α) : Bounds α := ⟨p, p⟩

/-- Grows a box until it holds a point. -/
def cover (b : Bounds α) (p : Vec3 α) : Bounds α := ⟨b.low.least p, b.high.greatest p⟩

/-- The box of a list of points; without points, the origin. -/
def ofPoints : List (Vec3 α) → Bounds α
  | [] => point .origin
  | p :: rest => rest.foldl cover (point p)

end Bounds

def Mesh.bounds (m : Mesh α) : Bounds α := Bounds.ofPoints m.vertices.toList

end Tendril
