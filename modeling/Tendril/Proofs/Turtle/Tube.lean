import Mathlib.Data.List.Basic
import Tendril.Proofs.Mesh.Numbers
import Tendril.Turtle.Tube

/-!
# Tubes

What a tube is made of, by number: rung `i` leads from point `2 * i` of the ring at the end to point
`2 * i + 1` of the ring at the start, and a quad lies between each rung and the next. A tube says
nothing of points that it does not have, and names none of them twice.
-/

namespace Tendril

variable {α : Type}

namespace Tube

/-- The rung at step `i`, and the sides from its two ends to those of the next. -/
def edgesAt (size i : Nat) : List (List Nat) :=
  [[2 * i, 2 * i + 1], [2 * i, 2 * ((i + 1) % size)], [2 * i + 1, 2 * ((i + 1) % size) + 1]]

/-- The quad between the rung at step `i` and the next. -/
def quadAt (size i : Nat) : List Nat :=
  [2 * i, 2 * ((i + 1) % size), 2 * ((i + 1) % size) + 1, 2 * i + 1]

/-- Both ends of the next rung are found by going on by two and starting over behind the last. -/
theorem next_ends {size i : Nat} (inside : i < size) :
    (2 * i + 2) % (2 * size) = 2 * ((i + 1) % size) ∧
      (2 * i + 3) % (2 * size) = 2 * ((i + 1) % size) + 1 := by
  by_cases last : i + 1 = size
  · subst last
    rw [Nat.mod_self, show 2 * i + 2 = 2 * (i + 1) by omega, Nat.mod_self,
      show 2 * i + 3 = 2 * (i + 1) + 1 by omega, Nat.add_mod_left, Nat.mod_eq_of_lt (by omega)]
    exact ⟨rfl, rfl⟩
  · rw [Nat.mod_eq_of_lt (by omega), Nat.mod_eq_of_lt (by omega), Nat.mod_eq_of_lt (by omega)]
    omega

theorem numbers_tubeEdges {size i : Nat} (inside : i < size) (fits : 2 * size < 2 ^ 32) :
    (Mesh.tubeEdges size i).map Edge.numbers = edgesAt size i := by
  have next := next_lt inside
  simp only [Mesh.tubeEdges, (next_ends inside).1, (next_ends inside).2, List.map_cons,
    List.map_nil, Edge.numbers, Edge.indices, edgesAt]
  rw [toNat_ofNat_of_fits (by omega), toNat_ofNat_of_fits (by omega),
    toNat_ofNat_of_fits (by omega), toNat_ofNat_of_fits (by omega)]

theorem numbers_tubeQuad {size i : Nat} (inside : i < size) (fits : 2 * size < 2 ^ 32) :
    (Mesh.tubeQuad size i).numbers = quadAt size i := by
  have next := next_lt inside
  simp only [Mesh.tubeQuad, (next_ends inside).1, (next_ends inside).2, List.map_cons,
    List.map_nil, Quad.numbers, Quad.indices, quadAt]
  rw [toNat_ofNat_of_fits (by omega), toNat_ofNat_of_fits (by omega),
    toNat_ofNat_of_fits (by omega), toNat_ofNat_of_fits (by omega)]

theorem names_edges {size : Nat} (several : 2 ≤ size) :
    ∀ numbers ∈ (List.range size).flatMap (edgesAt size), Names (2 * size) numbers := by
  intro numbers member
  obtain ⟨i, within, among⟩ := List.mem_flatMap.mp member
  have inside := List.mem_range.mp within
  have next := next_lt inside
  have apart := next_ne inside several
  simp only [edgesAt, List.mem_cons, List.not_mem_nil, or_false] at among
  rcases among with rfl | rfl | rfl
  · exact ⟨by simp; omega, by simp⟩
  · exact ⟨by simp; omega, by simp; omega⟩
  · exact ⟨by simp; omega, by simp; omega⟩

theorem names_quads {size : Nat} (several : 2 ≤ size) :
    ∀ numbers ∈ (List.range size).map (quadAt size), Names (2 * size) numbers := by
  intro numbers member
  obtain ⟨i, within, rfl⟩ := List.mem_map.mp member
  have inside := List.mem_range.mp within
  have next := next_lt inside
  have apart := next_ne inside several
  exact ⟨by simp [quadAt]; omega, by simp [quadAt]; omega⟩

end Tube

variable [Scalar α]

/-- A style can be drawn if its radius is a size and its rings enclose an area. -/
theorem TubeStyle.fault?_eq_none_iff {style : TubeStyle α} : style.fault? = none ↔
    Scalar.isSize style.radius = true ∧ minRingSize ≤ style.resolution.toNat := by
  simp [fault?, ite_eq_iff]

theorem TubeStyle.minRingSize_le {style : TubeStyle α} (drawable : style.fault? = none) :
    minRingSize ≤ style.resolution.toNat :=
  (fault?_eq_none_iff.mp drawable).2

variable {start finish normal binormal : Vec3 α} {style : TubeStyle α} {m : Mesh α}

theorem tube_eq_ok_iff : tube start finish normal binormal style = .ok m ↔
    style.fault? = none ∧ m = {
      vertices := ((List.range style.resolution.toNat).flatMap fun i =>
        [finish + style.offset normal binormal i, start + style.offset normal binormal i]).toArray
      edges := ((List.range style.resolution.toNat).flatMap
        (Mesh.tubeEdges style.resolution.toNat)).toArray
      quads := ((List.range style.resolution.toNat).map
        (Mesh.tubeQuad style.resolution.toNat)).toArray } := by
  unfold tube
  cases style.fault? <;> simp [eq_comm]

/-- A tube has two points for each step around it, three edges and one quad. -/
theorem tube_counts (drawn : tube start finish normal binormal style = .ok m) :
    m.vertexCount = 2 * style.resolution.toNat ∧ m.edgeCount = 3 * style.resolution.toNat ∧
      m.quadCount = style.resolution.toNat := by
  obtain ⟨_, rfl⟩ := tube_eq_ok_iff.mp drawn
  simp [Mesh.vertexCount, Mesh.edgeCount, Mesh.quadCount, Mesh.tubeEdges, List.length_flatMap,
    List.map_const', Nat.mul_comm]

/-- Where the points of a tube can be numbered, its edges and quads are those of its steps. -/
theorem tube_numbers (drawn : tube start finish normal binormal style = .ok m)
    (fits : 2 * style.resolution.toNat < 2 ^ 32) :
    m.edges.toList.map Edge.numbers = (List.range style.resolution.toNat).flatMap
        (Tube.edgesAt style.resolution.toNat) ∧
      m.quads.toList.map Quad.numbers = (List.range style.resolution.toNat).map
        (Tube.quadAt style.resolution.toNat) := by
  obtain ⟨_, rfl⟩ := tube_eq_ok_iff.mp drawn
  rw [List.map_flatMap, List.map_map]
  constructor
  · apply List.flatMap_congr
    intro i member
    exact Tube.numbers_tubeEdges (List.mem_range.mp member) fits
  · apply List.map_congr_left
    intro i member
    exact Tube.numbers_tubeQuad (List.mem_range.mp member) fits

/-- A tube whose points can be numbered is valid. -/
theorem isValid_tube (drawn : tube start finish normal binormal style = .ok m)
    (fits : 2 * style.resolution.toNat < 2 ^ 32) : m.isValid = true := by
  have count := (tube_counts drawn).1
  have several : 2 ≤ style.resolution.toNat :=
    Nat.le_of_lt (style.minRingSize_le (tube_eq_ok_iff.mp drawn).1)
  rw [Mesh.isValid_iff_names (by rw [count]; exact fits), count, (tube_numbers drawn fits).1,
    (tube_numbers drawn fits).2]
  exact ⟨Tube.names_edges several, Tube.names_quads several⟩

end Tendril
