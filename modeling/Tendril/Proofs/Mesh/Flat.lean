import Tendril.Mesh.Flat
import Tendril.Proofs.Mesh.Merge

/-!
# Flat forms of joined meshes

A mesh can be joined from parts and then made flat, or its parts can be made flat and handed over
one by one. Both ways give the same buffers: those of the parts one behind the other, with each
index moved past the points of the parts before its own.
-/

namespace Tendril

variable {α : Type}

/-! ## Counts -/

namespace FlatMesh

theorem toNat_deviceCount (n : Nat) : (deviceCount n).toNat = min n (2 ^ 32 - 1) :=
  toNat_ofNat_of_fits (Nat.lt_of_le_of_lt (Nat.min_le_right n _) (by decide))

theorem toNat_deviceCount_of_lt {n : Nat} (few : n < 2 ^ 32) : (deviceCount n).toNat = n := by
  rw [toNat_deviceCount, Nat.min_eq_left (by omega)]

/-- It does not matter whether counts are added up before or after the device takes them. -/
theorem deviceCount_sum (counts : List Nat) :
    deviceCount ((counts.map fun n => (deviceCount n).toNat).sum) = deviceCount counts.sum := by
  rw [← UInt32.toNat_inj, toNat_deviceCount, toNat_deviceCount]
  induction counts with
  | nil => rfl
  | cons n counts ih =>
      rw [List.map_cons, List.sum_cons, List.sum_cons, toNat_deviceCount]
      omega

theorem sum_deviceCount {counts : List Nat} (few : counts.sum < 2 ^ 32) :
    (counts.map fun n => (deviceCount n).toNat).sum = counts.sum := by
  induction counts with
  | nil => rfl
  | cons n counts ih =>
      rw [List.sum_cons] at few
      rw [List.map_cons, List.sum_cons, List.sum_cons, toNat_deviceCount_of_lt (by omega),
        ih (by omega)]

end FlatMesh

/-! ## Buffers -/

/-- The triangles of a quad have the corners of the quad. -/
theorem Quad.triangles_subset (q : Quad) : q.triangles ⊆ q.indices := by
  simp [Quad.triangles, Quad.indices]

namespace Mesh

theorem toList_flatEdges (m : Mesh α) :
    m.flatEdges.toList = m.edges.toList.flatMap Edge.indices := by
  simp [flatEdges]

theorem toList_flatQuads (m : Mesh α) :
    m.flatQuads.toList = m.quads.toList.flatMap Quad.indices := by
  simp [flatQuads]

theorem toList_flatTriangles (m : Mesh α) :
    m.flatTriangles.toList = m.quads.toList.flatMap Quad.triangles := by
  simp [flatTriangles]

theorem toList_flatVertices (m : Mesh Float) : m.flatVertices.toList =
    m.vertices.toList.flatMap fun p => [p.x.toFloat32, p.y.toFloat32, p.z.toFloat32] := by
  simp [flatVertices]

theorem size_flatVertices (m : Mesh Float) : m.flatVertices.size = 3 * m.vertexCount := by
  rw [← Array.length_toList, toList_flatVertices, List.length_flatMap]
  simp [vertexCount, List.map_const', Nat.mul_comm]

theorem size_flatEdges (m : Mesh α) : m.flatEdges.size = 2 * m.edgeCount := by
  rw [← Array.length_toList, toList_flatEdges, List.length_flatMap]
  simp [Edge.indices, edgeCount, List.map_const', Nat.mul_comm]

theorem size_flatQuads (m : Mesh α) : m.flatQuads.size = 4 * m.quadCount := by
  rw [← Array.length_toList, toList_flatQuads, List.length_flatMap]
  simp [Quad.indices, quadCount, List.map_const', Nat.mul_comm]

theorem size_flatTriangles (m : Mesh α) : m.flatTriangles.size = 6 * m.quadCount := by
  rw [← Array.length_toList, toList_flatTriangles, List.length_flatMap]
  simp [Quad.triangles, quadCount, List.map_const', Nat.mul_comm]

theorem moves_flatEdges :
    Moves (fun m : Mesh α => m.flatEdges.toList) fun offset i => i + offset := by
  simp only [toList_flatEdges]
  exact moves_edges.flatMap fun _ _ => rfl

theorem moves_flatQuads :
    Moves (fun m : Mesh α => m.flatQuads.toList) fun offset i => i + offset := by
  simp only [toList_flatQuads]
  exact moves_quads.flatMap fun _ _ => rfl

theorem moves_flatTriangles :
    Moves (fun m : Mesh α => m.flatTriangles.toList) fun offset i => i + offset := by
  simp only [toList_flatTriangles]
  exact moves_quads.flatMap fun _ _ => rfl

/-- The index buffers of a valid mesh name points of it. -/
theorem flat_inside {m : Mesh α} (valid : m.isValid = true) :
    (∀ i ∈ m.flatEdges.toList, i.toNat < m.vertexCount) ∧
      (∀ i ∈ m.flatQuads.toList, i.toNat < m.vertexCount) ∧
      ∀ i ∈ m.flatTriangles.toList, i.toNat < m.vertexCount := by
  obtain ⟨edges, quads⟩ := inside_of_isValid valid
  rw [toList_flatEdges, toList_flatQuads, toList_flatTriangles]
  simp only [List.mem_flatMap]
  refine ⟨?_, ?_, ?_⟩
  · rintro i ⟨e, member, named⟩
    exact edges e member i named
  · rintro i ⟨q, member, named⟩
    exact quads q member i named
  · rintro i ⟨q, member, named⟩
    exact quads q member i (q.triangles_subset named)

end Mesh

namespace FlatMesh

/-- The indices of some flat meshes, one behind the other, as they are in a mesh that has the points
of all: those of a part are moved past the points of the parts before it. -/
def moved (indices : FlatMesh → Array Index) (parts : List FlatMesh) : List Nat :=
  (parts.mapIdx fun j part =>
    (indices part).toList.map fun i => i.toNat + pointsBefore (·.vertexCount.toNat) parts j).flatten

/-- How many coordinates some flat meshes have, three for each point. -/
def coordinateCount (parts : List FlatMesh) : Nat := (parts.map (·.vertices.size)).sum

theorem coordinateCount_map_ofMesh (parts : List (Mesh Float)) :
    coordinateCount (parts.map ofMesh) = 3 * (parts.map Mesh.vertexCount).sum := by
  induction parts with
  | nil => rfl
  | cons part rest ih =>
      have here : (ofMesh part).vertices.size = 3 * part.vertexCount := part.size_flatVertices
      rw [coordinateCount] at ih ⊢
      simp only [List.map_cons, List.sum_cons, ih, here]
      omega

/-- A flat mesh that holds what several hold, and counts what they count. There can be more edges
than a count tells though there are few points, and the count is then the greatest. -/
structure Joins (whole : FlatMesh) (parts : List FlatMesh) : Prop where
  vertices : whole.vertices.toList = parts.flatMap (·.vertices.toList)
  edges : whole.edges.toList.map UInt32.toNat = moved (·.edges) parts
  quads : whole.quads.toList.map UInt32.toNat = moved (·.quads) parts
  triangles : whole.triangles.toList.map UInt32.toNat = moved (·.triangles) parts
  vertexCount : whole.vertexCount.toNat = (parts.map (·.vertexCount.toNat)).sum
  edgeCount : whole.edgeCount = deviceCount (parts.map (·.edgeCount.toNat)).sum
  quadCount : whole.quadCount.toNat = (parts.map (·.quadCount.toNat)).sum

variable {parts : List (Mesh Float)}

/-- Where the points of all parts can be numbered, the device counts the points of each. -/
theorem pointsBefore_map_ofMesh (few : (parts.map Mesh.vertexCount).sum < 2 ^ 32) (j : Nat) :
    pointsBefore (·.vertexCount.toNat) (parts.map ofMesh) j =
      pointsBefore Mesh.vertexCount parts j := by
  have below : ((parts.take j).map Mesh.vertexCount).sum ≤ (parts.map Mesh.vertexCount).sum :=
    ((List.take_sublist j parts).map _).sum_le_sum fun _ _ => Nat.zero_le _
  have counted := sum_deviceCount (Nat.lt_of_le_of_lt below few)
  rw [List.map_map] at counted
  rw [pointsBefore, ← List.map_take, List.map_map]
  exact counted

theorem moved_map_ofMesh (few : (parts.map Mesh.vertexCount).sum < 2 ^ 32)
    (indices : FlatMesh → Array Index) :
    moved indices (parts.map ofMesh) = (parts.mapIdx fun j part =>
      (indices (ofMesh part)).toList.map fun i =>
        i.toNat + pointsBefore Mesh.vertexCount parts j).flatten := by
  unfold moved
  congr 1
  exact List.ext_getElem (by simp) fun j _ _ => by simp [pointsBefore_map_ofMesh few]

/-- Joining parts and making them flat gives what the flat parts hold. -/
theorem joins_ofMesh_mergeAll (few : (parts.map Mesh.vertexCount).sum < 2 ^ 32)
    (valid : ∀ part ∈ parts, part.isValid = true)
    (covered : ∀ part ∈ parts, part.quadCount ≤ part.vertexCount) :
    (ofMesh (.mergeAll parts)).Joins (parts.map ofMesh) where
  vertices := by
    show (Mesh.mergeAll parts).flatVertices.toList = _
    rw [Mesh.toList_flatVertices, Mesh.vertices_mergeAll, List.flatMap_assoc, List.flatMap_map]
    simp only [← Mesh.toList_flatVertices]
    rfl
  edges := by
    rw [moved_map_ofMesh few]
    exact Mesh.moves_flatEdges.numbers_mergeAll few fun part member =>
      (Mesh.flat_inside (valid part member)).1
  quads := by
    rw [moved_map_ofMesh few]
    exact Mesh.moves_flatQuads.numbers_mergeAll few fun part member =>
      (Mesh.flat_inside (valid part member)).2.1
  triangles := by
    rw [moved_map_ofMesh few]
    exact Mesh.moves_flatTriangles.numbers_mergeAll few fun part member =>
      (Mesh.flat_inside (valid part member)).2.2
  vertexCount := by
    show (deviceCount (Mesh.mergeAll parts).vertexCount).toNat = _
    rw [Mesh.vertexCount_mergeAll, toNat_deviceCount_of_lt few, ← sum_deviceCount few]
    simp only [List.map_map]
    rfl
  edgeCount := by
    show deviceCount (Mesh.mergeAll parts).edgeCount = _
    rw [Mesh.edgeCount_mergeAll, ← deviceCount_sum]
    simp only [List.map_map]
    rfl
  quadCount := by
    have below : (parts.map Mesh.quadCount).sum < 2 ^ 32 :=
      Nat.lt_of_le_of_lt (List.sum_le_sum covered) few
    show (deviceCount (Mesh.mergeAll parts).quadCount).toNat = _
    rw [Mesh.quadCount_mergeAll, toNat_deviceCount_of_lt below, ← sum_deviceCount below]
    simp only [List.map_map]
    rfl

end FlatMesh

end Tendril
