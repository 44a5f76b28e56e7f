import Mathlib.Data.Sym.Sym2
import Tendril.Proofs.Mesh.Numbers

/-!
# Surfaces

How quads lie side by side. A quad is traversed from corner to corner and back to the first, and so
traverses each of its sides in one direction; `traversals` counts the quads that take a side in a
given direction, `quadsAt` those that take it in either, and `edgesAt` the edges that are drawn
along it. A quad whose corners are distinct takes no side both ways, so the quads at a side are
those of the one direction and those of the other.
-/

namespace Tendril

variable {α : Type}

/-- The two ends of an edge, whichever comes first. -/
def Edge.pair (e : Edge) : Sym2 Nat := s(e.a.toNat, e.b.toNat)

/-- The steps of a walk through some points and back to the first. -/
def circuit (numbers : List Nat) : List (Nat × Nat) := numbers.zip (numbers.rotate 1)

/-- The sides of a quad, each from the corner that comes first to the one that comes next. -/
def Quad.sides (q : Quad) : List (Nat × Nat) := circuit q.numbers

namespace Mesh

/-- How many quads have a side that leads from `a` to `b`. -/
def traversals (m : Mesh α) (a b : Nat) : Nat :=
  m.quads.toList.countP fun q => (a, b) ∈ q.sides

/-- How many quads have a side between two points. -/
def quadsAt (m : Mesh α) (pair : Sym2 Nat) : Nat :=
  m.quads.toList.countP fun q => ∃ side ∈ q.sides, s(side.1, side.2) = pair

/-- How many edges there are between two points. -/
def edgesAt (m : Mesh α) (pair : Sym2 Nat) : Nat := (m.edges.toList.map Edge.pair).count pair

end Mesh

theorem Quad.mem_sides_iff {q : Quad} {a b : Nat} :
    (∃ side ∈ q.sides, s(side.1, side.2) = s(a, b)) ↔ (a, b) ∈ q.sides ∨ (b, a) ∈ q.sides := by
  constructor
  · rintro ⟨⟨c, d⟩, member, same⟩
    rcases Sym2.eq_iff.mp same with ⟨rfl, rfl⟩ | ⟨rfl, rfl⟩
    · exact .inl member
    · exact .inr member
  · rintro (forth | back)
    · exact ⟨(a, b), forth, rfl⟩
    · exact ⟨(b, a), back, Sym2.eq_swap⟩

/-- A quad with distinct corners takes none of its sides both ways. -/
theorem Quad.one_way {q : Quad} (distinct : q.numbers.Nodup) {a b : Nat}
    (forth : (a, b) ∈ q.sides) : (b, a) ∉ q.sides := by
  have corners : q.sides = [(q.a.toNat, q.b.toNat), (q.b.toNat, q.c.toNat),
    (q.c.toNat, q.d.toNat), (q.d.toNat, q.a.toNat)] := rfl
  simp only [Quad.numbers, Quad.indices, List.map_cons, List.map_nil, List.nodup_cons,
    List.mem_cons, List.not_mem_nil, or_false, not_or, List.nodup_nil, not_false_eq_true,
    and_true] at distinct
  simp only [corners, List.mem_cons, List.not_mem_nil, or_false, Prod.mk.injEq] at forth ⊢
  omega

/-- Of two properties that exclude each other either is counted for itself. -/
theorem countP_or_of_disjoint {β : Type} {p q : β → Bool} (l : List β)
    (disjoint : ∀ x ∈ l, p x = true → q x = false) :
    l.countP (fun x => p x || q x) = l.countP p + l.countP q := by
  induction l with
  | nil => rfl
  | cons x l ih =>
      have rest := ih fun y member => disjoint y (List.mem_cons_of_mem _ member)
      have here := disjoint x List.mem_cons_self
      rw [List.countP_cons, List.countP_cons, List.countP_cons, rest]
      cases px : p x with
      | true => simp [here px]; omega
      | false => simp; omega

/-- A property that singles out an item holds of one item, or of none if the item is not there. -/
theorem countP_of_nodup {β : Type} [DecidableEq β] {l : List β} (nodup : l.Nodup) {p : β → Bool}
    {x : β} (only : ∀ y ∈ l, p y = true ↔ y = x) : l.countP p = if x ∈ l then 1 else 0 := by
  have same : l.countP p = l.count x := by
    apply List.countP_congr
    intro y member
    rw [only y member, beq_iff_eq]
  rw [same, nodup.count]

namespace Mesh

theorem traversals_eq (m : Mesh α) (a b : Nat) : m.traversals a b =
    (m.quads.toList.map Quad.numbers).countP fun numbers => (a, b) ∈ circuit numbers := by
  rw [List.countP_map]
  rfl

/-- The quads at a side are those that take it in the one direction and those that take it in the
other. -/
theorem quadsAt_eq {m : Mesh α}
    (distinct : ∀ numbers ∈ m.quads.toList.map Quad.numbers, numbers.Nodup) (a b : Nat) :
    m.quadsAt s(a, b) = m.traversals a b + m.traversals b a := by
  unfold quadsAt traversals
  rw [← countP_or_of_disjoint]
  · apply List.countP_congr
    intro q member
    simp only [Quad.mem_sides_iff, decide_eq_true_iff, Bool.or_eq_true]
  · intro q member forth
    rw [decide_eq_true_iff] at forth
    exact decide_eq_false (Quad.one_way (distinct _ (List.mem_map_of_mem member)) forth)

/-- Where there is a quad, one of its sides leads from the one point to the other. -/
theorem exists_traversal {m : Mesh α} {pair : Sym2 Nat} (taken : 0 < m.quadsAt pair) :
    ∃ a b, s(a, b) = pair ∧ 0 < m.traversals a b := by
  obtain ⟨q, member, here⟩ := List.countP_pos_iff.mp taken
  obtain ⟨⟨a, b⟩, side, same⟩ := of_decide_eq_true here
  exact ⟨a, b, same, List.countP_pos_iff.mpr ⟨q, member, decide_eq_true side⟩⟩

end Mesh

end Tendril
