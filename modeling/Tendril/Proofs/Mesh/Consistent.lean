import Tendril.Proofs.Mesh.Flat

/-!
# Flat meshes that agree with themselves

A device takes a flat mesh as it is and looks things up where the indices say. That goes well when
the buffers are as long as the counts say, when every index is that of a point, and when no edge,
quad or triangle has a corner twice. The flat form of a valid mesh is of this kind, as long as its
points, edges and quads can be counted.
-/

namespace Tendril

variable {α : Type}

namespace FlatMesh

/-- Item `j` of a buffer in which every item has `size` indices. -/
def item (buffer : Array Index) (size j : Nat) : List Index :=
  (buffer.toList.drop (j * size)).take size

/-- A flat mesh whose counts, buffers and indices agree. -/
structure Consistent (f : FlatMesh) : Prop where
  sizeVertices : f.vertices.size = 3 * f.vertexCount.toNat
  sizeEdges : f.edges.size = 2 * f.edgeCount.toNat
  sizeQuads : f.quads.size = 4 * f.quadCount.toNat
  sizeTriangles : f.triangles.size = 6 * f.quadCount.toNat
  isEmpty_iff : f.isEmpty = true ↔ f.vertices = #[]
  insideEdges : ∀ i ∈ f.edges, i < f.vertexCount
  insideQuads : ∀ i ∈ f.quads, i < f.vertexCount
  insideTriangles : ∀ i ∈ f.triangles, i < f.vertexCount
  edgesApart : ∀ j < f.edgeCount.toNat, (item f.edges 2 j).Nodup
  quadsApart : ∀ j < f.quadCount.toNat, (item f.quads 4 j).Nodup
  trianglesApart : ∀ j < 2 * f.quadCount.toNat, (item f.triangles 3 j).Nodup

/-- A flat mesh of so few points, edges and quads that a device can count them. -/
structure Few (f : FlatMesh) : Prop where
  points : f.vertices.size < 3 * 2 ^ 32
  edges : f.edges.size < 2 * 2 ^ 32
  quads : f.quads.size < 4 * 2 ^ 32

/-- The items of rows of one length are the rows. -/
theorem item_flatten {rows : List (List Index)} {size j : Nat}
    (sized : ∀ row ∈ rows, row.length = size) (inside : j < rows.length) :
    item rows.flatten.toArray size j = rows[j] := by
  show (rows.flatten.drop (j * size)).take size = rows[j]
  rw [drop_flatten_of_length sized, List.drop_eq_getElem_cons inside, List.flatten_cons]
  exact List.take_left' (sized _ (List.getElem_mem inside))

theorem item_mem {rows : List (List Index)} {size j : Nat}
    (sized : ∀ row ∈ rows, row.length = size) (inside : j < rows.length) :
    item rows.flatten.toArray size j ∈ rows := by
  rw [item_flatten sized inside]
  exact List.getElem_mem inside

/-- Where no row has an index twice, no item has. -/
theorem nodup_item {rows : List (List Index)} {size j : Nat}
    (sized : ∀ row ∈ rows, row.length = size) (apart : ∀ row ∈ rows, row.Nodup)
    (inside : j < rows.length) : (item rows.flatten.toArray size j).Nodup :=
  apart _ (item_mem sized inside)

end FlatMesh

/-! ## Valid meshes -/

/-- The two triangles of a quad, each by its corners. -/
def Quad.halves (q : Quad) : List (List Index) := [[q.a, q.b, q.c], [q.a, q.c, q.d]]

theorem Quad.mem_halves_iff {q : Quad} {half : List Index} :
    half ∈ q.halves ↔ half = [q.a, q.b, q.c] ∨ half = [q.a, q.c, q.d] := by
  simp [halves]

theorem Quad.length_of_mem_halves {q : Quad} {half : List Index} (member : half ∈ q.halves) :
    half.length = 3 := by
  rcases Quad.mem_halves_iff.mp member with rfl | rfl <;> rfl

/-- No triangle of a quad with four corners has a corner twice. -/
theorem Quad.nodup_of_mem_halves {q : Quad} (apart : q.indices.Nodup) :
    ∀ half ∈ q.halves, half.Nodup := by
  intro half member
  rcases Quad.mem_halves_iff.mp member with rfl | rfl
  · exact apart.sublist (by simp [indices])
  · exact apart.sublist (by simp [indices])

namespace Mesh

/-- No edge and no quad of a valid mesh names a point twice. -/
theorem nodup_of_isValid {m : Mesh α} (valid : m.isValid = true) :
    (∀ e ∈ m.edges.toList, e.indices.Nodup) ∧ ∀ q ∈ m.quads.toList, q.indices.Nodup := by
  simp only [isValid, Bool.and_eq_true, ← Array.all_toList, List.all_eq_true,
    decide_eq_true_iff] at valid
  exact ⟨fun e member => (valid.1 e member).2, fun q member => (valid.2 q member).2⟩

theorem flatEdges_eq (m : Mesh α) :
    m.flatEdges = (m.edges.toList.map Edge.indices).flatten.toArray := by
  rw [← List.flatMap_def, ← toList_flatEdges]

theorem flatQuads_eq (m : Mesh α) :
    m.flatQuads = (m.quads.toList.map Quad.indices).flatten.toArray := by
  rw [← List.flatMap_def, ← toList_flatQuads]

theorem flatTriangles_eq (m : Mesh α) :
    m.flatTriangles = (m.quads.toList.flatMap Quad.halves).flatten.toArray := by
  rw [List.flatten_eq_flatMap, List.flatMap_assoc]
  show _ = (m.quads.toList.flatMap Quad.triangles).toArray
  rw [← toList_flatTriangles]

theorem length_halves (m : Mesh α) :
    (m.quads.toList.flatMap Quad.halves).length = 2 * m.quadCount := by
  simp [List.length_flatMap, Quad.halves, quadCount, List.map_const', Nat.mul_comm]

end Mesh

namespace FlatMesh

theorem few_ofMesh_iff {m : Mesh Float} : (ofMesh m).Few ↔
    m.vertexCount < 2 ^ 32 ∧ m.edgeCount < 2 ^ 32 ∧ m.quadCount < 2 ^ 32 := by
  have points : (ofMesh m).vertices.size = 3 * m.vertexCount := m.size_flatVertices
  have edges : (ofMesh m).edges.size = 2 * m.edgeCount := m.size_flatEdges
  have quads : (ofMesh m).quads.size = 4 * m.quadCount := m.size_flatQuads
  constructor
  · rintro ⟨_, _, _⟩
    omega
  · rintro ⟨_, _, _⟩
    constructor <;> omega

/-- The flat form of a valid mesh agrees with itself, if a device can count what the mesh has. -/
theorem consistent_ofMesh {m : Mesh Float} (valid : m.vertexCount < 2 ^ 32 → m.isValid = true)
    (few : (ofMesh m).Few) : (ofMesh m).Consistent := by
  obtain ⟨points, edges, quads⟩ := few_ofMesh_iff.mp few
  have vertexCount : (ofMesh m).vertexCount.toNat = m.vertexCount := toNat_deviceCount_of_lt points
  have edgeCount : (ofMesh m).edgeCount.toNat = m.edgeCount := toNat_deviceCount_of_lt edges
  have quadCount : (ofMesh m).quadCount.toNat = m.quadCount := toNat_deviceCount_of_lt quads
  have sizeVertices : (ofMesh m).vertices.size = 3 * m.vertexCount := m.size_flatVertices
  obtain ⟨edgesInside, quadsInside, trianglesInside⟩ := Mesh.flat_inside (valid points)
  obtain ⟨edgesApart, quadsApart⟩ := Mesh.nodup_of_isValid (valid points)
  refine
    { sizeVertices := vertexCount ▸ sizeVertices
      sizeEdges := edgeCount ▸ m.size_flatEdges
      sizeQuads := quadCount ▸ m.size_flatQuads
      sizeTriangles := quadCount ▸ m.size_flatTriangles
      isEmpty_iff := ?_
      insideEdges := fun i member => ?_
      insideQuads := fun i member => ?_
      insideTriangles := fun i member => ?_
      edgesApart := fun j inside => ?_
      quadsApart := fun j inside => ?_
      trianglesApart := fun j inside => ?_ }
  · rw [← Array.size_eq_zero_iff, sizeVertices, isEmpty, beq_iff_eq, ← UInt32.toNat_inj,
      vertexCount, UInt32.toNat_zero]
    omega
  · rw [UInt32.lt_iff_toNat_lt, vertexCount]
    exact edgesInside i member.val
  · rw [UInt32.lt_iff_toNat_lt, vertexCount]
    exact quadsInside i member.val
  · rw [UInt32.lt_iff_toNat_lt, vertexCount]
    exact trianglesInside i member.val
  · show (item m.flatEdges 2 j).Nodup
    rw [edgeCount] at inside
    rw [Mesh.flatEdges_eq]
    exact nodup_item (List.forall_mem_map.mpr fun _ _ => rfl) (List.forall_mem_map.mpr edgesApart)
      (by simpa [Mesh.edgeCount] using inside)
  · show (item m.flatQuads 4 j).Nodup
    rw [quadCount] at inside
    rw [Mesh.flatQuads_eq]
    exact nodup_item (List.forall_mem_map.mpr fun _ _ => rfl) (List.forall_mem_map.mpr quadsApart)
      (by simpa [Mesh.quadCount] using inside)
  · show (item m.flatTriangles 3 j).Nodup
    rw [quadCount, ← Mesh.length_halves] at inside
    rw [Mesh.flatTriangles_eq]
    exact nodup_item
      (List.forall_mem_flatMap.mpr fun _ _ _ half => Quad.length_of_mem_halves half)
      (List.forall_mem_flatMap.mpr fun q member => Quad.nodup_of_mem_halves (quadsApart q member))
      inside

end FlatMesh

end Tendril
