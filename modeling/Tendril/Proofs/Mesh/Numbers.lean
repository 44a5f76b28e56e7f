import Mathlib.Algebra.GroupWithZero.Nat
import Mathlib.Data.List.Nodup
import Tendril.Mesh.Basic

/-!
# Indices as numbers

An index is a word of 32 bits and a position in a buffer is a number. Where a mesh has fewer points
than there are words the two agree, and whether it is valid can be read off the numbers. Those of a
ring follow each other and start over, and those of rings of one size lie in rows.
-/

namespace Tendril

variable {α : Type}

/-- The numbers of the two ends of an edge. -/
def Edge.numbers (e : Edge) : List Nat := e.indices.map UInt32.toNat

/-- The numbers of the four corners of a quad. -/
def Quad.numbers (q : Quad) : List Nat := q.indices.map UInt32.toNat

theorem toNat_ofNat_of_fits {n : Nat} (fits : n < 2 ^ 32) : (UInt32.ofNat n).toNat = n :=
  UInt32.toNat_ofNat_of_lt' fits

/-- Numbers as indices hold them, which start over behind the greatest word. -/
def asIndices (numbers : List Nat) : List Nat := numbers.map (· % 2 ^ 32)

theorem asIndices_of_fits {numbers : List Nat} (fits : ∀ n ∈ numbers, n < 2 ^ 32) :
    asIndices numbers = numbers := by
  rw [asIndices, List.map_congr_left fun n member => Nat.mod_eq_of_lt (fits n member),
    List.map_id']

theorem Edge.numbers_ofNat (a b : Nat) :
    Edge.numbers ⟨UInt32.ofNat a, UInt32.ofNat b⟩ = asIndices [a, b] := by
  simp [numbers, indices, asIndices]

theorem Quad.numbers_ofNat (a b c d : Nat) :
    Quad.numbers ⟨UInt32.ofNat a, UInt32.ofNat b, UInt32.ofNat c, UInt32.ofNat d⟩ =
      asIndices [a, b, c, d] := by
  simp [numbers, indices, asIndices]

/-! ## Closed ways -/

/-- The place after one of those on a closed way is one of them as well. -/
theorem next_lt {size i : Nat} (inside : i < size) : (i + 1) % size < size :=
  Nat.mod_lt _ (by omega)

/-- The place that follows a place is the one after it, or the first if it is the last. -/
theorem next_cases {size i : Nat} (inside : i < size) :
    (i + 1 < size ∧ (i + 1) % size = i + 1) ∨ (i + 1 = size ∧ (i + 1) % size = 0) := by
  rcases Nat.lt_or_ge (i + 1) size with within | last
  · exact .inl ⟨within, Nat.mod_eq_of_lt within⟩
  · have seam : i + 1 = size := by omega
    exact .inr ⟨seam, by rw [seam, Nat.mod_self]⟩

/-- Every place follows a place. -/
theorem exists_next {size j : Nat} (inside : j < size) : ∃ i < size, (i + 1) % size = j := by
  rcases Nat.eq_zero_or_pos j with rfl | positive
  · exact ⟨size - 1, by omega, by rw [Nat.sub_add_cancel inside, Nat.mod_self]⟩
  · exact ⟨j - 1, by omega, by rw [Nat.sub_add_cancel positive, Nat.mod_eq_of_lt inside]⟩

theorem next_inj {size i j : Nat} (hi : i < size) (hj : j < size) :
    (i + 1) % size = (j + 1) % size ↔ i = j := by
  have ni := next_cases hi
  have nj := next_cases hj
  omega

theorem next_ne {size i : Nat} (inside : i < size) (several : 2 ≤ size) : (i + 1) % size ≠ i := by
  have next := next_cases inside
  omega

/-! ## Rows -/

/-- Rows of one length are left out with all their items. -/
theorem drop_flatten_of_length {β : Type} {rows : List (List β)} {size : Nat}
    (same : ∀ row ∈ rows, row.length = size) (k : Nat) :
    rows.flatten.drop (k * size) = (rows.drop k).flatten := by
  induction k generalizing rows with
  | zero => rw [Nat.zero_mul, List.drop_zero, List.drop_zero]
  | succ k ih =>
      cases rows with
      | nil => rw [List.flatten_nil, List.drop_nil, List.drop_nil, List.flatten_nil]
      | cons row rows =>
          have past : (k + 1) * size = row.length + k * size := by
            rw [same row List.mem_cons_self, Nat.succ_mul, Nat.add_comm]
          rw [List.flatten_cons, past, List.drop_length_add_append, List.drop_succ_cons]
          exact ih fun row' member => same row' (List.mem_cons_of_mem _ member)

/-- In a list of rows of one length the rows follow each other at that distance. -/
theorem getElem?_flatten_of_length {β : Type} {rows : List (List β)} {size : Nat}
    (same : ∀ row ∈ rows, row.length = size) (k : Nat) {i : Nat} (inside : i < size) :
    rows.flatten[k * size + i]? = rows[k]?.bind fun row => row[i]? := by
  have here : rows[k]? = (rows.drop k)[0]? := by rw [List.getElem?_drop, Nat.add_zero]
  rw [← List.getElem?_drop, drop_flatten_of_length same, here]
  cases later : rows.drop k with
  | nil => rfl
  | cons row rest =>
      have member : row ∈ rows := List.mem_of_mem_drop (later ▸ List.mem_cons_self)
      rw [List.flatten_cons, List.getElem?_append_left (by rwa [same row member])]
      rfl

/-! ## Names -/

/-- Numbers that mean points of a buffer, each another one. -/
structure Names (count : Nat) (numbers : List Nat) : Prop where
  inside : ∀ n ∈ numbers, n < count
  distinct : numbers.Nodup

namespace Mesh

theorem toNat_nextIndex {m : Mesh α} (few : m.vertexCount < 2 ^ 32) :
    m.nextIndex.toNat = m.vertexCount :=
  toNat_ofNat_of_fits few

/-- The edges and quads of a valid mesh name points of it. -/
theorem inside_of_isValid {m : Mesh α} (valid : m.isValid = true) :
    (∀ e ∈ m.edges.toList, ∀ i ∈ e.indices, i.toNat < m.vertexCount) ∧
      ∀ q ∈ m.quads.toList, ∀ i ∈ q.indices, i.toNat < m.vertexCount := by
  have bound : ∀ i, i < m.nextIndex → i.toNat < m.vertexCount := fun i below =>
    Nat.lt_of_lt_of_le (UInt32.lt_iff_toNat_lt.mp below) (by simp [nextIndex, Nat.mod_le])
  simp only [isValid, Bool.and_eq_true, ← Array.all_toList, List.all_eq_true,
    decide_eq_true_iff] at valid
  exact ⟨fun e member i named => bound i ((valid.1 e member).1 i named),
    fun q member i named => bound i ((valid.2 q member).1 i named)⟩

private theorem names_iff {m : Mesh α} (few : m.vertexCount < 2 ^ 32) (indices : List Index) :
    (indices.all (· < m.nextIndex) && decide indices.Nodup) = true ↔
      Names m.vertexCount (indices.map UInt32.toNat) := by
  have same : (indices.map UInt32.toNat).Nodup ↔ indices.Nodup :=
    List.nodup_map_iff fun a b => UInt32.toNat_inj.mp
  simp only [Bool.and_eq_true, List.all_eq_true, decide_eq_true_iff, UInt32.lt_iff_toNat_lt,
    toNat_nextIndex few]
  constructor
  · rintro ⟨inside, distinct⟩
    refine ⟨fun n member => ?_, same.mpr distinct⟩
    obtain ⟨i, here, rfl⟩ := List.mem_map.mp member
    exact inside i here
  · rintro ⟨inside, distinct⟩
    exact ⟨fun i here => inside _ (List.mem_map_of_mem here), same.mp distinct⟩

/-- A mesh is valid when its edges and quads name points of it, and none of them twice. -/
theorem isValid_iff_names {m : Mesh α} (few : m.vertexCount < 2 ^ 32) :
    m.isValid = true ↔
      (∀ numbers ∈ m.edges.toList.map Edge.numbers, Names m.vertexCount numbers) ∧
        ∀ numbers ∈ m.quads.toList.map Quad.numbers, Names m.vertexCount numbers := by
  simp only [isValid, Bool.and_eq_true, ← Array.all_toList, List.all_eq_true, List.forall_mem_map]
  constructor
  · rintro ⟨edges, quads⟩
    refine ⟨fun e member => (names_iff few _).mp ?_, fun q member => (names_iff few _).mp ?_⟩
    · simpa using edges e member
    · simpa using quads q member
  · rintro ⟨edges, quads⟩
    refine ⟨fun e member => ?_, fun q member => ?_⟩
    · simpa using (names_iff few e.indices).mpr (edges e member)
    · simpa using (names_iff few q.indices).mpr (quads q member)

end Mesh

end Tendril
