import Mathlib.Data.List.Basic
import Mathlib.Tactic.Ring
import Tendril.Proofs.Mesh.Numbers
import Tendril.Sweep.Tube

/-!
# Bands

The mesh of rings of one size, numbered: point `i` of ring `k` is the point `k * size + i` of the
mesh. Between two rings lies a band of quads, one for each side, and what the edges and the quads
are follows from the number of rings and their size alone. `Stacked.foldl_addRing` says so of meshes
that rings are added to one after the other, up to what a word can hold, and `Stacked.banded` of
those that have a word for each of their points.
-/

namespace Tendril

variable {α : Type}

namespace Band

/-- Side `i` of ring `k`. The last side leads back to the first point. -/
def side (size k i : Nat) : List Nat := [k * size + i, k * size + (i + 1) % size]

/-- The rung from point `i` of ring `k` to the same point of the next ring. -/
def rung (size k i : Nat) : List Nat := [k * size + i, (k + 1) * size + i]

/-- The edges that side `i` of ring `k + 1` brings along. -/
def edgesAt (size k i : Nat) : List (List Nat) :=
  [side size (k + 1) i, side size k i, rung size k i, rung size k ((i + 1) % size)]

/-- The quad between side `i` of ring `k` and the same side of the next ring. -/
def quadAt (size k i : Nat) : List Nat :=
  [k * size + i, k * size + (i + 1) % size, (k + 1) * size + (i + 1) % size, (k + 1) * size + i]

/-- The edges that come with ring `k`. -/
def edges (size : Nat) : Nat → List (List Nat)
  | 0 => (List.range size).map (side size 0)
  | k + 1 => (List.range size).flatMap (edgesAt size k)

/-- The quads that come with ring `k`. -/
def quads (size : Nat) : Nat → List (List Nat)
  | 0 => []
  | k + 1 => (List.range size).map (quadAt size k)

theorem length_edges (size k : Nat) :
    (edges size k).length = if k = 0 then size else 4 * size := by
  cases k with
  | zero => simp [edges]
  | succ k => simp [edges, edgesAt, List.length_flatMap, List.map_const', Nat.mul_comm]

theorem length_quads (size k : Nat) : (quads size k).length = if k = 0 then 0 else size := by
  cases k <;> simp [quads]

/-- One edge for each side of the first ring, and four for each side of any other. -/
theorem length_flatMap_edges (size rings : Nat) :
    ((List.range rings).flatMap (edges size)).length =
      if rings = 0 then 0 else size + 4 * size * (rings - 1) := by
  induction rings with
  | zero => rfl
  | succ rings ih =>
      rw [List.range_succ, List.flatMap_append, List.length_append, ih, List.flatMap_singleton,
        length_edges]
      cases rings with
      | zero => simp
      | succ rings =>
          simp
          ring

theorem length_flatMap_quads (size rings : Nat) :
    ((List.range rings).flatMap (quads size)).length = size * (rings - 1) := by
  induction rings with
  | zero => rfl
  | succ rings ih =>
      rw [List.range_succ, List.flatMap_append, List.length_append, ih, List.flatMap_singleton,
        length_quads]
      cases rings with
      | zero => simp
      | succ rings =>
          simp
          ring

/-- The first ring brings no quads. -/
theorem flatMap_quads_succ (size bands : Nat) :
    (List.range (bands + 1)).flatMap (quads size) =
      (List.range bands).flatMap fun k => (List.range size).map (quadAt size k) := by
  rw [List.range_succ_eq_map, List.flatMap_cons, List.flatMap_map]
  rfl

/-! ## Points of the mesh -/

variable {size rings k i : Nat}

/-- Point `i` of ring `k` is a point of the mesh. -/
theorem point_lt (behind : k < rings) (inside : i < size) : k * size + i < rings * size :=
  calc k * size + i < (k + 1) * size := by rw [Nat.succ_mul]; omega
    _ ≤ rings * size := Nat.mul_le_mul_right size behind

theorem side_inside (behind : k < rings) (inside : i < size) :
    ∀ n ∈ side size k i, n < rings * size := by
  have next := next_lt inside
  simp only [side, List.forall_mem_cons, List.not_mem_nil, false_implies, implies_true, and_true]
  exact ⟨point_lt behind inside, point_lt behind next⟩

theorem rung_inside (behind : k + 1 < rings) (inside : i < size) :
    ∀ n ∈ rung size k i, n < rings * size := by
  simp only [rung, List.forall_mem_cons, List.not_mem_nil, false_implies, implies_true, and_true]
  exact ⟨point_lt (by omega) inside, point_lt behind inside⟩

theorem quadAt_inside (behind : k + 1 < rings) (inside : i < size) :
    ∀ n ∈ quadAt size k i, n < rings * size := by
  have next := next_lt inside
  have below : k < rings := by omega
  simp only [quadAt, List.forall_mem_cons, List.not_mem_nil, false_implies, implies_true,
    and_true]
  exact ⟨point_lt below inside, point_lt below next, point_lt behind next, point_lt behind inside⟩

/-- An edge is a side of a ring or a rung between two rings. -/
theorem eq_of_mem_edges {numbers : List Nat}
    (member : numbers ∈ (List.range rings).flatMap (edges size)) :
    (∃ k < rings, ∃ i < size, numbers = side size k i) ∨
      ∃ k, k + 1 < rings ∧ ∃ i < size, numbers = rung size k i := by
  obtain ⟨k, behind, here⟩ := List.mem_flatMap.mp member
  rw [List.mem_range] at behind
  cases k with
  | zero =>
      obtain ⟨i, inside, rfl⟩ := List.mem_map.mp here
      exact .inl ⟨0, behind, i, List.mem_range.mp inside, rfl⟩
  | succ k =>
      obtain ⟨i, inside, among⟩ := List.mem_flatMap.mp here
      rw [List.mem_range] at inside
      simp only [edgesAt, List.mem_cons, List.not_mem_nil, or_false] at among
      rcases among with rfl | rfl | rfl | rfl
      · exact .inl ⟨k + 1, behind, i, inside, rfl⟩
      · exact .inl ⟨k, by omega, i, inside, rfl⟩
      · exact .inr ⟨k, behind, i, inside, rfl⟩
      · exact .inr ⟨k, behind, _, next_lt inside, rfl⟩

theorem eq_of_mem_quads {numbers : List Nat}
    (member : numbers ∈ (List.range rings).flatMap (quads size)) :
    ∃ k, k + 1 < rings ∧ ∃ i < size, numbers = quadAt size k i := by
  obtain ⟨k, behind, here⟩ := List.mem_flatMap.mp member
  rw [List.mem_range] at behind
  cases k with
  | zero => cases here
  | succ k =>
      obtain ⟨i, inside, rfl⟩ := List.mem_map.mp here
      exact ⟨k, behind, i, List.mem_range.mp inside, rfl⟩

theorem edges_inside : ∀ numbers ∈ (List.range rings).flatMap (edges size),
    ∀ n ∈ numbers, n < rings * size := by
  intro numbers member
  rcases eq_of_mem_edges member with ⟨k, behind, i, inside, rfl⟩ | ⟨k, behind, i, inside, rfl⟩
  · exact side_inside behind inside
  · exact rung_inside behind inside

theorem quads_inside : ∀ numbers ∈ (List.range rings).flatMap (quads size),
    ∀ n ∈ numbers, n < rings * size := by
  intro numbers member
  obtain ⟨k, behind, i, inside, rfl⟩ := eq_of_mem_quads member
  exact quadAt_inside behind inside

/-! ## The numbers of a ring's edges and quads -/

theorem numbers_ringEdges_first (size i : Nat) :
    (Mesh.ringEdges size 0 false i).map Edge.numbers = [asIndices (side size 0 i)] := by
  simp [Mesh.ringEdges, Edge.numbers_ofNat, side]

theorem numbers_ringEdges_later (size k i : Nat) :
    (Mesh.ringEdges size ((k + 1) * size) true i).map Edge.numbers =
      (edgesAt size k i).map asIndices := by
  have before : (k + 1) * size - size = k * size := by rw [Nat.succ_mul, Nat.add_sub_cancel]
  simp only [Mesh.ringEdges, if_true, List.map_cons, List.map_nil, Edge.numbers_ofNat, edgesAt,
    side, rung, before]

theorem numbers_ringQuad (size k i : Nat) :
    (Mesh.ringQuad size ((k + 1) * size) i).numbers = asIndices (quadAt size k i) := by
  have before : (k + 1) * size - size = k * size := by rw [Nat.succ_mul, Nat.add_sub_cancel]
  simp only [Mesh.ringQuad, Quad.numbers_ofNat, quadAt, before]

end Band

/-! ## Meshes of rings -/

namespace Mesh

theorem addRing_vertices (m : Mesh α) (ring : List (Vec3 α)) :
    (m.addRing ring).vertices.toList = m.vertices.toList ++ ring := by
  simp only [addRing, Array.appendList_eq_append, Array.toList_appendList]

theorem vertexCount_addRing (m : Mesh α) (ring : List (Vec3 α)) :
    (m.addRing ring).vertexCount = m.vertexCount + ring.length := by
  rw [vertexCount, ← Array.length_toList, addRing_vertices, List.length_append]
  rfl

theorem addRing_edges (m : Mesh α) (ring : List (Vec3 α)) :
    (m.addRing ring).edges.toList = m.edges.toList ++
      (List.range ring.length).flatMap (ringEdges ring.length m.vertices.size !m.isEmpty) := by
  simp only [addRing, Array.appendList_eq_append, Array.toList_appendList, vertexCount]

theorem addRing_quads (m : Mesh α) (ring : List (Vec3 α)) :
    (m.addRing ring).quads.toList = m.quads.toList ++
      if !m.isEmpty then (List.range ring.length).map (ringQuad ring.length m.vertices.size)
      else [] := by
  simp only [addRing, Array.appendList_eq_append, Array.toList_appendList, vertexCount]

end Mesh

/-- A mesh of so many rings of one size, joined by bands, whatever words hold of its numbers. -/
structure Stacked (size rings : Nat) (m : Mesh α) : Prop where
  vertices : m.vertices.size = rings * size
  edges : m.edges.toList.map Edge.numbers =
    ((List.range rings).flatMap (Band.edges size)).map asIndices
  quads : m.quads.toList.map Quad.numbers =
    ((List.range rings).flatMap (Band.quads size)).map asIndices

namespace Stacked

variable {size rings : Nat} {m : Mesh α}

theorem empty (size : Nat) : Stacked size 0 (Mesh.empty : Mesh α) := by
  constructor <;> simp [Mesh.empty]

theorem isEmpty_eq (stacked : Stacked size rings m) (points : 0 < size) :
    m.isEmpty = decide (rings = 0) := by
  rw [Mesh.isEmpty, Bool.eq_iff_iff, Array.isEmpty_iff, decide_eq_true_iff,
    ← Array.size_eq_zero_iff, stacked.vertices, Nat.mul_eq_zero]
  omega

/-- Another ring of the same size joins the last one by a band. -/
theorem addRing (stacked : Stacked size rings m) {ring : List (Vec3 α)}
    (sized : ring.length = size) (points : 0 < size) :
    Stacked size (rings + 1) (m.addRing ring) where
  vertices := by
    have count := m.vertexCount_addRing ring
    rwa [Mesh.vertexCount, Mesh.vertexCount, stacked.vertices, sized, ← Nat.succ_mul] at count
  edges := by
    rw [Mesh.addRing_edges, List.map_append, stacked.edges, List.range_succ, List.flatMap_append,
      List.flatMap_singleton, List.map_append, sized, stacked.vertices, stacked.isEmpty_eq points]
    congr 1
    rw [List.map_flatMap]
    -- The first ring has nothing to be joined to, and brings its own sides only.
    cases rings with
    | zero =>
        rw [Band.edges, List.map_map, List.map_eq_flatMap, Nat.zero_mul]
        exact List.flatMap_congr fun i _ => Band.numbers_ringEdges_first size i
    | succ k =>
        rw [Band.edges, List.map_flatMap]
        exact List.flatMap_congr fun i _ => Band.numbers_ringEdges_later size k i
  quads := by
    rw [Mesh.addRing_quads, List.map_append, stacked.quads, List.range_succ, List.flatMap_append,
      List.flatMap_singleton, List.map_append, sized, stacked.vertices, stacked.isEmpty_eq points]
    congr 1
    cases rings with
    | zero => rfl
    | succ k =>
        show ((List.range size).map (Mesh.ringQuad size ((k + 1) * size))).map Quad.numbers =
          ((List.range size).map (Band.quadAt size k)).map asIndices
        rw [List.map_map, List.map_map]
        exact List.map_congr_left fun i _ => Band.numbers_ringQuad size k i

/-- Rings of one size, added one after the other. -/
theorem foldl_addRing (stacked : Stacked size rings m) (points : 0 < size)
    (more : List (List (Vec3 α))) (sized : ∀ ring ∈ more, ring.length = size) :
    Stacked size (rings + more.length) (more.foldl Mesh.addRing m) := by
  induction more generalizing rings m with
  | nil => exact stacked
  | cons ring more ih =>
      have same : rings + (ring :: more).length = rings + 1 + more.length := by
        rw [List.length_cons]
        omega
      rw [same]
      have next := stacked.addRing (sized ring List.mem_cons_self) points
      exact ih next fun ring' member => sized ring' (List.mem_cons_of_mem _ member)

/-- A ring brings a point for each of its places. The first one brings as many edges, and all others
bring four edges and a quad for each place. -/
theorem counts (stacked : Stacked size rings m) :
    m.vertexCount = rings * size ∧
      m.edgeCount = (if rings = 0 then 0 else size + 4 * size * (rings - 1)) ∧
      m.quadCount = size * (rings - 1) := by
  have edges := congrArg List.length stacked.edges
  have quads := congrArg List.length stacked.quads
  rw [List.length_map, List.length_map] at edges quads
  rw [Band.length_flatMap_edges] at edges
  rw [Band.length_flatMap_quads] at quads
  exact ⟨stacked.vertices, edges, quads⟩

end Stacked

/-- A mesh of so many rings of one size, joined by bands. -/
structure Banded (size rings : Nat) (m : Mesh α) : Prop where
  vertices : m.vertices.size = rings * size
  edges : m.edges.toList.map Edge.numbers = (List.range rings).flatMap (Band.edges size)
  quads : m.quads.toList.map Quad.numbers = (List.range rings).flatMap (Band.quads size)

/-- Where there are words for all points, words hold the numbers that are meant. -/
theorem Stacked.banded {size rings : Nat} {m : Mesh α} (stacked : Stacked size rings m)
    (fits : rings * size < 2 ^ 32) : Banded size rings m := by
  have held : ∀ {items : List (List Nat)},
      (∀ numbers ∈ items, ∀ n ∈ numbers, n < rings * size) → items.map asIndices = items := by
    intro items inside
    have same : ∀ numbers ∈ items, asIndices numbers = numbers := fun numbers member =>
      asIndices_of_fits fun n named => Nat.lt_trans (inside numbers member n named) fits
    rw [List.map_congr_left same, List.map_id']
  refine ⟨stacked.vertices, ?_, ?_⟩
  · rw [stacked.edges, held Band.edges_inside]
  · rw [stacked.quads, held Band.quads_inside]

/-- The points of the rings stand in the mesh one ring behind the other. -/
theorem Mesh.foldl_addRing_vertices (m : Mesh α) (rings : List (List (Vec3 α))) :
    (rings.foldl Mesh.addRing m).vertices.toList = m.vertices.toList ++ rings.flatten := by
  induction rings generalizing m with
  | nil => simp
  | cons ring rings ih =>
      rw [List.foldl_cons, ih, addRing_vertices, List.flatten_cons, List.append_assoc]

end Tendril
