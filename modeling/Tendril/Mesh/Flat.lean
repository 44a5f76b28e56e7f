import Tendril.Mesh.Basic

/-!
# Flat meshes

The form of a mesh that a graphics device takes: one buffer of single-precision coordinates and
three of indices, with the counts beside them. Quads are also given cut into triangles.
-/

namespace Tendril

namespace Mesh

/-- The coordinates of the points, point after point, in single precision. -/
def flatVertices (m : Mesh Float) : Array Float32 :=
  m.vertices.flatMap fun p => #[p.x.toFloat32, p.y.toFloat32, p.z.toFloat32]

def flatEdges {α : Type} (m : Mesh α) : Array Index := m.edges.flatMap fun e => e.indices.toArray

def flatQuads {α : Type} (m : Mesh α) : Array Index := m.quads.flatMap fun q => q.indices.toArray

/-- The corners of the triangles, two triangles a quad. -/
def flatTriangles {α : Type} (m : Mesh α) : Array Index :=
  m.quads.flatMap fun q => q.triangles.toArray

end Mesh

/-- The buffers of one mesh. -/
structure FlatMesh where
  vertices : Array Float32
  edges : Array Index
  quads : Array Index
  triangles : Array Index
  vertexCount : UInt32
  edgeCount : UInt32
  quadCount : UInt32
  deriving BEq

namespace FlatMesh

/-- A count as a device takes it: the greatest word stands for all counts beyond. -/
def deviceCount (n : Nat) : UInt32 := UInt32.ofNat (min n (UInt32.size - 1))

def ofMesh (m : Mesh Float) : FlatMesh where
  vertices := m.flatVertices
  edges := m.flatEdges
  quads := m.flatQuads
  triangles := m.flatTriangles
  vertexCount := deviceCount m.vertexCount
  edgeCount := deviceCount m.edgeCount
  quadCount := deviceCount m.quadCount

def isEmpty (f : FlatMesh) : Bool := f.vertexCount == 0

end FlatMesh

end Tendril
