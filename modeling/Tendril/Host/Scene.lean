import Tendril.Host.Sink
import Tendril.Mesh.Flat

/-!
# Scenes

Two hosts that keep what they are given, in order, and refuse nothing. A scene keeps whole meshes
under a name; a flat list keeps their flat forms. A handle is the number of meshes that were there
before, and nothing is ever taken out.
-/

namespace Tendril

variable {α : Type}

/-- A named collection of meshes. -/
structure Scene (α : Type) where
  name : String
  meshes : Array (Mesh α)
  deriving BEq

/-- The handle of a mesh in a scene. -/
structure MeshId where
  position : Nat
  deriving DecidableEq, Repr

namespace Scene

def named (name : String) : Scene α := ⟨name, #[]⟩

def size (s : Scene α) : Nat := s.meshes.size

def isEmpty (s : Scene α) : Bool := s.meshes.isEmpty

/-- The mesh with a handle. -/
def get? (s : Scene α) (id : MeshId) : Option (Mesh α) := s.meshes[id.position]?

/-- Keeps a mesh. -/
def add (s : Scene α) (m : Mesh α) : MeshId × Scene α :=
  (⟨s.size⟩, { s with meshes := s.meshes.push m })

def sink : Sink α (Scene α) MeshId where
  create m s := let (id, s) := s.add m; (.ok id, s)

end Scene

/-- A list of flat meshes. -/
structure FlatList where
  meshes : Array FlatMesh
  deriving BEq

namespace FlatList

def empty : FlatList := ⟨#[]⟩

def size (l : FlatList) : Nat := l.meshes.size

def isEmpty (l : FlatList) : Bool := l.meshes.isEmpty

/-- The flat mesh with a handle. -/
def get? (l : FlatList) (handle : Nat) : Option FlatMesh := l.meshes[handle]?

/-- Keeps the flat form of a mesh. -/
def add (l : FlatList) (m : Mesh Float) : Nat × FlatList :=
  (l.size, { l with meshes := l.meshes.push (.ofMesh m) })

def sink : Sink Float FlatList Nat where
  create m l := let (handle, l) := l.add m; (.ok handle, l)

end FlatList

end Tendril
