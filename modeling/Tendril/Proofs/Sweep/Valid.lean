import Tendril.Proofs.Sweep.Band

/-!
# Valid bands

A mesh of rings is valid as soon as a ring has two points: no edge and no quad then leads back to
the point it starts from.
-/

namespace Tendril

variable {α : Type}

namespace Band

variable {size rings k i : Nat}

theorem names_side (behind : k < rings) (inside : i < size) (several : 2 ≤ size) :
    Names (rings * size) (side size k i) where
  inside := side_inside behind inside
  distinct := by
    have apart := next_ne inside several
    simp only [side, List.nodup_cons, List.mem_singleton, List.not_mem_nil, List.nodup_nil,
      not_false_eq_true, and_true]
    omega

theorem names_rung (behind : k + 1 < rings) (inside : i < size) :
    Names (rings * size) (rung size k i) where
  inside := rung_inside behind inside
  distinct := by
    have above : (k + 1) * size = k * size + size := Nat.succ_mul k size
    simp only [rung, List.nodup_cons, List.mem_singleton, List.not_mem_nil, List.nodup_nil,
      not_false_eq_true, and_true]
    omega

theorem names_quadAt (behind : k + 1 < rings) (inside : i < size) (several : 2 ≤ size) :
    Names (rings * size) (quadAt size k i) where
  inside := quadAt_inside behind inside
  distinct := by
    have next := next_lt inside
    have apart := next_ne inside several
    have above : (k + 1) * size = k * size + size := Nat.succ_mul k size
    simp only [quadAt, List.nodup_cons, List.mem_cons, List.not_mem_nil, List.nodup_nil, or_false,
      not_or, not_false_eq_true, and_true]
    omega

theorem names_edges (several : 2 ≤ size) :
    ∀ numbers ∈ (List.range rings).flatMap (edges size), Names (rings * size) numbers := by
  intro numbers member
  rcases eq_of_mem_edges member with ⟨k, behind, i, inside, rfl⟩ | ⟨k, behind, i, inside, rfl⟩
  · exact names_side behind inside several
  · exact names_rung behind inside

theorem names_quads (several : 2 ≤ size) :
    ∀ numbers ∈ (List.range rings).flatMap (quads size), Names (rings * size) numbers := by
  intro numbers member
  obtain ⟨k, behind, i, inside, rfl⟩ := eq_of_mem_quads member
  exact names_quadAt behind inside several

end Band

/-- Rings of two points or more make a valid mesh. -/
theorem Banded.isValid {size rings : Nat} {m : Mesh α} (banded : Banded size rings m)
    (several : 2 ≤ size) (fits : rings * size < 2 ^ 32) : m.isValid = true := by
  have count : m.vertexCount = rings * size := banded.vertices
  rw [Mesh.isValid_iff_names (by rw [count]; exact fits), count, banded.edges, banded.quads]
  exact ⟨Band.names_edges several, Band.names_quads several⟩

end Tendril
