import Tendril.Proofs.Mesh.Consistent
import Tendril.Proofs.Mesh.Surface

/-!
# Quads cut into triangles

A device draws triangles, so every quad is cut in two, from its first corner to its third. The two
halves go once along each side of the quad, the way the quad does, and along the cut they go both
ways. What is passed forth and back cancels out, so the triangles have the boundary of the quads,
even where a quad names a point twice and takes a side several times.
-/

namespace Tendril

variable {α : Type}

namespace Quad

/-- The cut through a quad, taken by the one half and by the other. -/
def cut (q : Quad) : List (Nat × Nat) := [(q.a.toNat, q.c.toNat), (q.c.toNat, q.a.toNat)]

/-- Two triangles that share out the corners of a quad. -/
structure SharedOut (q : Quad) (first second : List Index) : Prop where
  sizes : first.length = 3 ∧ second.length = 3
  own : ∀ i ∈ first ++ second, i ∈ q.indices
  all : ∀ i ∈ q.indices, i ∈ first ++ second

theorem sharedOut_halves (q : Quad) : q.SharedOut [q.a, q.b, q.c] [q.a, q.c, q.d] where
  sizes := ⟨rfl, rfl⟩
  own := q.triangles_subset
  all := by simp [indices]

end Quad

/-- The sides of a triangle, in the direction in which it takes them. -/
def triangleSides (triangle : List Index) : List (Nat × Nat) :=
  circuit (triangle.map UInt32.toNat)

/-- The halves of a quad take its sides, and the cut both ways. -/
theorem Quad.perm_halves (q : Quad) :
    (q.halves.flatMap triangleSides).Perm (q.sides ++ q.cut) := by
  have first : triangleSides [q.a, q.b, q.c] =
      [(q.a.toNat, q.b.toNat), (q.b.toNat, q.c.toNat), (q.c.toNat, q.a.toNat)] := rfl
  have second : triangleSides [q.a, q.c, q.d] =
      [(q.a.toNat, q.c.toNat), (q.c.toNat, q.d.toNat), (q.d.toNat, q.a.toNat)] := rfl
  have sides : q.sides = [(q.a.toNat, q.b.toNat), (q.b.toNat, q.c.toNat)] ++
      [(q.c.toNat, q.d.toNat), (q.d.toNat, q.a.toNat)] := rfl
  have back : q.cut.Perm [(q.c.toNat, q.a.toNat), (q.a.toNat, q.c.toNat)] := .swap ..
  calc q.halves.flatMap triangleSides
      = [(q.a.toNat, q.b.toNat), (q.b.toNat, q.c.toNat)] ++
          ([(q.c.toNat, q.a.toNat), (q.a.toNat, q.c.toNat)] ++
            [(q.c.toNat, q.d.toNat), (q.d.toNat, q.a.toNat)]) := by
        rw [halves, List.flatMap_cons, List.flatMap_singleton, first, second]
        rfl
    List.Perm _ (_ ++ (q.cut ++ _)) := .append_left _ (back.symm.append_right _)
    List.Perm _ (_ ++ (_ ++ q.cut)) := .append_left _ List.perm_append_comm
    _ = q.sides ++ q.cut := by rw [sides, List.append_assoc]

/-- A cut is taken as often the one way as the other. -/
theorem Quad.count_cut (q : Quad) (a b : Nat) : q.cut.count (a, b) = q.cut.count (b, a) := by
  have turned : q.cut.map Prod.swap = [(q.c.toNat, q.a.toNat), (q.a.toNat, q.c.toNat)] := rfl
  calc q.cut.count (a, b)
      = (q.cut.map Prod.swap).count (b, a) :=
        (List.count_map_of_injective _ _ Prod.swap_injective (a, b)).symm
    _ = q.cut.count (b, a) := by
        rw [turned]
        exact (List.Perm.swap ..).count_eq _

/-! ## Reading the buffer -/

namespace FlatMesh

/-- Who reads rows of one length item by item gets all rows. -/
theorem map_item {rows : List (List Index)} {size : Nat}
    (sized : ∀ row ∈ rows, row.length = size) :
    (List.range rows.length).map (item rows.flatten.toArray size) = rows := by
  apply List.ext_getElem
  · rw [List.length_map, List.length_range]
  · intro j _ inside
    rw [List.getElem_map, List.getElem_range, item_flatten sized inside]

end FlatMesh

namespace Mesh

/-- The triangles of a mesh as they are read off the buffer, three indices each. -/
def triangles (m : Mesh α) : List (List Index) :=
  (List.range (m.flatTriangles.size / 3)).map (FlatMesh.item m.flatTriangles 3)

/-- How often the quads of a mesh take the side from `a` to `b`. -/
def quadSteps (m : Mesh α) (a b : Nat) : Nat := (m.quads.toList.flatMap Quad.sides).count (a, b)

/-- How often the triangles of a mesh take the side from `a` to `b`. -/
def triangleSteps (m : Mesh α) (a b : Nat) : Nat :=
  (m.triangles.flatMap triangleSides).count (a, b)

theorem triangles_eq (m : Mesh α) : m.triangles = m.quads.toList.flatMap Quad.halves := by
  have number : m.flatTriangles.size / 3 = (m.quads.toList.flatMap Quad.halves).length := by
    rw [size_flatTriangles, length_halves]
    omega
  rw [triangles, number, flatTriangles_eq]
  apply FlatMesh.map_item
  exact List.forall_mem_flatMap.mpr fun _ _ _ half => Quad.length_of_mem_halves half

/-- The triangles that come from a quad stand where the quad stands. -/
theorem triangles_getElem? {m : Mesh α} {j : Nat} {q : Quad} (here : m.quads[j]? = some q) :
    m.triangles[2 * j]? = some [q.a, q.b, q.c] ∧
      m.triangles[2 * j + 1]? = some [q.a, q.c, q.d] := by
  have rows : ∀ row ∈ m.quads.toList.map Quad.halves, row.length = 2 :=
    List.forall_mem_map.mpr fun _ _ => rfl
  have listed : (m.quads.toList.map Quad.halves)[j]? = some q.halves := by
    rw [List.getElem?_map, Array.getElem?_toList, here]
    rfl
  have read : ∀ i < 2, m.triangles[2 * j + i]? = q.halves[i]? := by
    intro i inside
    rw [triangles_eq, List.flatMap_def, Nat.mul_comm,
      getElem?_flatten_of_length rows j inside, listed]
    rfl
  exact ⟨read 0 (by omega), read 1 (by omega)⟩

/-- What the triangles take besides the sides of the quads are the cuts. -/
theorem triangleSteps_eq (m : Mesh α) (a b : Nat) : m.triangleSteps a b =
    m.quadSteps a b + (m.quads.toList.flatMap Quad.cut).count (a, b) := by
  have parted : ((m.quads.toList.flatMap Quad.halves).flatMap triangleSides).Perm
      (m.quads.toList.flatMap fun q => q.sides ++ q.cut) := by
    rw [List.flatMap_assoc]
    exact List.Perm.flatMap_left _ fun q _ => q.perm_halves
  have sorted := List.flatMap_append_perm m.quads.toList Quad.sides Quad.cut
  rw [triangleSteps, triangles_eq, (parted.trans sorted.symm).count_eq, List.count_append]
  rfl

theorem count_cuts (m : Mesh α) (a b : Nat) :
    (m.quads.toList.flatMap Quad.cut).count (a, b) =
      (m.quads.toList.flatMap Quad.cut).count (b, a) := by
  rw [List.count_flatMap, List.count_flatMap]
  congr 1
  exact List.map_congr_left fun q _ => q.count_cut a b

/-- Cutting the quads of a mesh does not change its surface: the buffer holds two triangles for each
quad, in order, which share out its corners, and the triangles have the boundary of the quads. The
triangles of a valid mesh name its points, each another one. -/
theorem triangles_split (m : Mesh α) :
    m.triangles.flatten = m.flatTriangles.toList ∧
      m.triangles.length = 2 * m.quadCount ∧
      (∀ j q, m.quads[j]? = some q → ∃ first second,
        m.triangles[2 * j]? = some first ∧ m.triangles[2 * j + 1]? = some second ∧
          q.SharedOut first second) ∧
      (∀ a b, (m.triangleSteps a b : Int) - m.triangleSteps b a =
        m.quadSteps a b - m.quadSteps b a) ∧
      (m.isValid = true → (∀ i ∈ m.flatTriangles, i.toNat < m.vertexCount) ∧
        ∀ triangle ∈ m.triangles, triangle.Nodup) := by
  refine ⟨?_, ?_, ?_, ?_, ?_⟩
  · rw [triangles_eq, flatTriangles_eq]
  · rw [triangles_eq, length_halves]
  · intro j q here
    obtain ⟨first, second⟩ := triangles_getElem? here
    exact ⟨_, _, first, second, q.sharedOut_halves⟩
  · intro a b
    have both := m.count_cuts a b
    rw [triangleSteps_eq, triangleSteps_eq]
    omega
  · intro valid
    refine ⟨fun i member => (flat_inside valid).2.2 i member.val, ?_⟩
    rw [triangles_eq]
    exact List.forall_mem_flatMap.mpr fun q member =>
      Quad.nodup_of_mem_halves ((nodup_of_isValid valid).2 q member)

/-- Two tiles that share a side, which they take in opposite directions. -/
def tiles : Mesh Float where
  vertices := #[⟨0, 0, 0⟩, ⟨1, 0, 0⟩, ⟨1, 1, 0⟩, ⟨0, 1, 0⟩, ⟨1, 2, 0⟩, ⟨0, 2, 0⟩]
  edges := #[]
  quads := #[⟨0, 1, 2, 3⟩, ⟨3, 2, 4, 5⟩]

theorem tiles_triangles_split :
    tiles.quads[1]? = some ⟨3, 2, 4, 5⟩ ∧
      (∃ first second, tiles.triangles[2]? = some first ∧ tiles.triangles[3]? = some second ∧
        Quad.SharedOut ⟨3, 2, 4, 5⟩ first second) ∧
      (tiles.triangleSteps 2 3 : Int) - tiles.triangleSteps 3 2 =
        tiles.quadSteps 2 3 - tiles.quadSteps 3 2 ∧
      tiles.isValid = true ∧ ∀ triangle ∈ tiles.triangles, triangle.Nodup := by
  obtain ⟨_, _, halved, bounded, sound⟩ := triangles_split tiles
  have valid : tiles.isValid = true := by decide +kernel
  exact ⟨rfl, halved 1 _ rfl, bounded 2 3, valid, (sound valid).2⟩

end Mesh

end Tendril
