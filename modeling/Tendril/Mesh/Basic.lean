import Tendril.Vector

/-!
# Meshes

Indexed buffers of points, edges and quads. An index says which point of the buffer is meant, and
points are only ever appended, so an index that was handed out keeps its meaning. Joining two
meshes shifts the indices of the second past the points of the first: the parts share no index.
-/

namespace Tendril

variable {α : Type}

/-- The position of a point in the buffer. -/
abbrev Index := UInt32

/-- A line between two points. -/
structure Edge where
  a : Index
  b : Index
  deriving DecidableEq, Repr

/-- A face with four corners, in the order in which its sides are traversed. -/
structure Quad where
  a : Index
  b : Index
  c : Index
  d : Index
  deriving DecidableEq, Repr

namespace Edge

def shift (offset : Index) (e : Edge) : Edge := ⟨e.a + offset, e.b + offset⟩

def indices (e : Edge) : List Index := [e.a, e.b]

end Edge

namespace Quad

def shift (offset : Index) (q : Quad) : Quad :=
  ⟨q.a + offset, q.b + offset, q.c + offset, q.d + offset⟩

def indices (q : Quad) : List Index := [q.a, q.b, q.c, q.d]

/-- The two triangles of a quad, cut from its first corner to its third. -/
def triangles (q : Quad) : List Index := [q.a, q.b, q.c, q.a, q.c, q.d]

end Quad

/-- Points with the edges and quads between them. -/
structure Mesh (α : Type) where
  vertices : Array (Vec3 α)
  edges : Array Edge
  quads : Array Quad
  deriving BEq

namespace Mesh

def empty : Mesh α := ⟨#[], #[], #[]⟩

instance : Inhabited (Mesh α) := ⟨empty⟩

def vertexCount (m : Mesh α) : Nat := m.vertices.size

def edgeCount (m : Mesh α) : Nat := m.edges.size

def quadCount (m : Mesh α) : Nat := m.quads.size

def isEmpty (m : Mesh α) : Bool := m.vertices.isEmpty

/-- The index that the next point will have. -/
def nextIndex (m : Mesh α) : Index := UInt32.ofNat m.vertexCount

/-- Appends a point and answers its index. -/
def addVertex (m : Mesh α) (p : Vec3 α) : Index × Mesh α :=
  (m.nextIndex, { m with vertices := m.vertices.push p })

def addEdge (m : Mesh α) (e : Edge) : Mesh α := { m with edges := m.edges.push e }

def addQuad (m : Mesh α) (q : Quad) : Mesh α := { m with quads := m.quads.push q }

/-- The point that an index means, if it means one. -/
def vertex? (m : Mesh α) (i : Index) : Option (Vec3 α) := m.vertices[i.toNat]?

/-- Moves every point by the same vector. -/
def move [Scalar α] (m : Mesh α) (offset : Vec3 α) : Mesh α :=
  { m with vertices := m.vertices.map (· + offset) }

/-- Appends the points of another mesh, with its edges and quads between them. -/
def merge (m other : Mesh α) : Mesh α :=
  let offset := m.nextIndex
  { vertices := m.vertices ++ other.vertices
    edges := m.edges ++ other.edges.map (Edge.shift offset)
    quads := m.quads ++ other.quads.map (Quad.shift offset) }

/-- Joins the parts in order. -/
def mergeAll (parts : List (Mesh α)) : Mesh α := parts.foldl merge empty

/-- Every index means a point, and no edge or quad names a point twice. Points may coincide: a
closed outline ends where it began. -/
def isValid (m : Mesh α) : Bool :=
  m.edges.all (fun e => e.indices.all (· < m.nextIndex) && decide e.indices.Nodup)
    && m.quads.all (fun q => q.indices.all (· < m.nextIndex) && decide q.indices.Nodup)

end Mesh

end Tendril
