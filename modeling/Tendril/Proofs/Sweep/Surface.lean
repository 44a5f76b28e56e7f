import Mathlib.Data.List.ProdSigma
import Tendril.Proofs.Mesh.Surface
import Tendril.Proofs.Sweep.Tube
import Tendril.Proofs.Sweep.Valid

/-!
# The surface of a sweep

Bands of quads close up to an open tube. The quads are told apart by the ring that they start from
and their place in it, and a side that leads from one point to another belongs to one such cell
only: the four lemmas on `circuit (quadAt ..)` name the cell for each of the four ways in which a
side can lie. Counting quads at a side is then counting one cell or none, and counting edges goes
the same way.
-/

namespace Tendril

variable {α : Type}

namespace Band

/-- The two points of side `i` of ring `k`. -/
def ringPair (size k i : Nat) : Sym2 Nat := s(k * size + i, k * size + (i + 1) % size)

/-- The two points of the rung from point `i` of ring `k` to the next ring. -/
def rungPair (size k i : Nat) : Sym2 Nat := s(k * size + i, (k + 1) * size + i)

/-- The sides of the first ring and of the last, which is the ring behind all bands. -/
def rim (size bands : Nat) : List (Sym2 Nat) :=
  (List.range size).map (ringPair size 0) ++ (List.range size).map (ringPair size bands)

end Band

/-- A mesh of quads and edges that is a tube, open at both ends, of so many points around and so
many bands of quads. -/
structure OpenTube (size bands : Nat) (m : Mesh α) : Prop where
  /-- No two quads take a side in the same direction. -/
  oriented : ∀ a b, m.traversals a b ≤ 1
  /-- A side lies between two quads that take it in opposite directions, unless it is on the rim. -/
  shared : ∀ a b, 0 < m.quadsAt s(a, b) →
    (m.quadsAt s(a, b) = 2 ∧ m.traversals a b = 1 ∧ m.traversals b a = 1) ∨
      (m.quadsAt s(a, b) = 1 ∧ s(a, b) ∈ Band.rim size bands)
  /-- The sides of a single quad are those of the rim. -/
  open_iff : ∀ pair, m.quadsAt pair = 1 ↔ pair ∈ Band.rim size bands
  /-- The rim has all sides of its two rings, and no two of them are the same. -/
  rim : (Band.rim size bands).Nodup
  /-- There is an edge between two points when there is a quad. -/
  drawn : ∀ pair, 0 < m.edgesAt pair ↔ 0 < m.quadsAt pair
  /-- Edges from ring to ring are drawn twice. -/
  rungs : ∀ k < bands, ∀ i < size, m.edgesAt (Band.rungPair size k i) = 2
  /-- The edges of a ring that another one follows are drawn twice. -/
  rings : ∀ k < bands, ∀ i < size, m.edgesAt (Band.ringPair size k i) = 2
  /-- The edges of the last ring are drawn once. -/
  last : ∀ i < size, m.edgesAt (Band.ringPair size bands i) = 1

namespace Band

/-! ## Points apart -/

variable {size : Nat}

/-- A point knows its ring and its place in it. -/
theorem point_inj {k l i j : Nat} (hi : i < size) (hj : j < size) :
    k * size + i = l * size + j ↔ k = l ∧ i = j := by
  constructor
  · intro same
    have rows : (k * size + i) / size = (l * size + j) / size := congrArg (· / size) same
    have points : 0 < size := by omega
    rw [Nat.mul_comm, Nat.mul_add_div points, Nat.mul_comm, Nat.mul_add_div points,
      Nat.div_eq_of_lt hi, Nat.div_eq_of_lt hj, Nat.add_zero, Nat.add_zero] at rows
    subst rows
    exact ⟨rfl, by omega⟩
  · rintro ⟨rfl, rfl⟩
    rfl

/-! ## Which cell a side belongs to -/

theorem circuit_quadAt (size k i : Nat) : circuit (quadAt size k i) =
    [(k * size + i, k * size + (i + 1) % size),
      (k * size + (i + 1) % size, (k + 1) * size + (i + 1) % size),
      ((k + 1) * size + (i + 1) % size, (k + 1) * size + i),
      ((k + 1) * size + i, k * size + i)] := rfl

variable {k l i j : Nat}

/-- The quad behind a ring takes its sides forward. -/
theorem forward_mem_iff (several : 3 ≤ size) (hi : i < size) (hj : j < size) :
    (k * size + i, k * size + (i + 1) % size) ∈ circuit (quadAt size l j) ↔ l = k ∧ j = i := by
  have ni := next_cases hi
  have nj := next_cases hj
  simp only [circuit_quadAt, List.mem_cons, List.not_mem_nil, or_false, Prod.mk.injEq,
    point_inj hi hj, point_inj hi (next_lt hj), point_inj (next_lt hi) hj,
    point_inj (next_lt hi) (next_lt hj)]
  omega

/-- The quad ahead of a ring takes its sides backward. -/
theorem backward_mem_iff (several : 3 ≤ size) (hi : i < size) (hj : j < size) :
    (k * size + (i + 1) % size, k * size + i) ∈ circuit (quadAt size l j) ↔ l + 1 = k ∧ j = i := by
  have ni := next_cases hi
  have nj := next_cases hj
  simp only [circuit_quadAt, List.mem_cons, List.not_mem_nil, or_false, Prod.mk.injEq,
    point_inj hi hj, point_inj hi (next_lt hj), point_inj (next_lt hi) hj,
    point_inj (next_lt hi) (next_lt hj)]
  omega

/-- The quad before a rung takes it to the next ring. -/
theorem upward_mem_iff (hi : i < size) (hj : j < size) :
    (k * size + (i + 1) % size, (k + 1) * size + (i + 1) % size) ∈ circuit (quadAt size l j) ↔
      l = k ∧ j = i := by
  have same := next_inj hi hj
  simp only [circuit_quadAt, List.mem_cons, List.not_mem_nil, or_false, Prod.mk.injEq,
    point_inj (next_lt hi) hj, point_inj (next_lt hi) (next_lt hj)]
  omega

/-- The quad behind a rung takes it back to the ring before. -/
theorem downward_mem_iff (hi : i < size) (hj : j < size) :
    ((k + 1) * size + i, k * size + i) ∈ circuit (quadAt size l j) ↔ l = k ∧ j = i := by
  simp only [circuit_quadAt, List.mem_cons, List.not_mem_nil, or_false, Prod.mk.injEq,
    point_inj hi hj, point_inj hi (next_lt hj)]
  omega

/-- The pair that a list of two points makes. -/
def ends (numbers : List Nat) : Sym2 Nat := s(numbers.headD 0, numbers.getLastD 0)

/-- The pairs of points that a side may lie between: neighbours in a ring, and the same point of
neighbouring rings. -/
def IsSide (size bands : Nat) (pair : Sym2 Nat) : Prop :=
  (∃ k ≤ bands, ∃ i < size, pair = ringPair size k i) ∨
    ∃ k < bands, ∃ i < size, pair = rungPair size k i

theorem isSide_of_mem_circuit {bands a b : Nat} (behind : k < bands) (inside : i < size)
    (here : (a, b) ∈ circuit (quadAt size k i)) : IsSide size bands s(a, b) := by
  simp only [circuit_quadAt, List.mem_cons, List.not_mem_nil, or_false, Prod.mk.injEq] at here
  rcases here with ⟨rfl, rfl⟩ | ⟨rfl, rfl⟩ | ⟨rfl, rfl⟩ | ⟨rfl, rfl⟩
  · exact .inl ⟨k, by omega, i, inside, rfl⟩
  · exact .inr ⟨k, behind, _, next_lt inside, rfl⟩
  · exact .inl ⟨k + 1, behind, i, inside, Sym2.eq_swap⟩
  · exact .inr ⟨k, behind, i, inside, Sym2.eq_swap⟩

/-! ## Counting cells -/

/-- The cells of so many bands: the ring that a quad starts from, and its place in it. -/
def cells (size bands : Nat) : List (Nat × Nat) := (List.range bands) ×ˢ (List.range size)

theorem mem_cells_iff {bands : Nat} : (k, i) ∈ cells size bands ↔ k < bands ∧ i < size := by
  simp [cells]

theorem cells_eq_flatMap (size bands : Nat) :
    cells size bands = (List.range bands).flatMap fun k => (List.range size).map (Prod.mk k) := rfl

theorem quads_eq_cells (size bands : Nat) :
    (List.range (bands + 1)).flatMap (quads size) =
      (cells size bands).map fun c => quadAt size c.1 c.2 := by
  rw [flatMap_quads_succ, cells_eq_flatMap, List.map_flatMap]
  apply List.flatMap_congr
  intro k _
  rw [List.map_map]
  rfl

theorem edges_eq_cells (size bands : Nat) :
    (List.range (bands + 1)).flatMap (edges size) =
      (List.range size).map (side size 0) ++
        (cells size bands).flatMap fun c => edgesAt size c.1 c.2 := by
  rw [List.range_succ_eq_map, List.flatMap_cons, List.flatMap_map, cells_eq_flatMap,
    List.flatMap_assoc]
  congr 1
  apply List.flatMap_congr
  intro k _
  rw [List.flatMap_map]
  rfl

theorem countP_cells {bands : Nat} {p : Nat × Nat → Bool}
    (only : ∀ l, ∀ j < size, p (l, j) = true ↔ l = k ∧ j = i) (inside : i < size) :
    (cells size bands).countP p = if k < bands then 1 else 0 := by
  have nodup : (cells size bands).Nodup := List.nodup_range.product List.nodup_range
  rw [countP_of_nodup (x := (k, i)) nodup]
  · simp [mem_cells_iff, inside]
  · rintro ⟨l, j⟩ member
    rw [only l j (mem_cells_iff.mp member).2, Prod.mk.injEq]

/-! ## Pairs apart -/

theorem ringPair_inj (several : 3 ≤ size) (hi : i < size) (hj : j < size) :
    ringPair size k i = ringPair size l j ↔ k = l ∧ i = j := by
  have ni := next_cases hi
  have nj := next_cases hj
  simp only [ringPair, Sym2.eq_iff, point_inj hi hj, point_inj hi (next_lt hj),
    point_inj (next_lt hi) hj, point_inj (next_lt hi) (next_lt hj)]
  omega

theorem rungPair_inj (hi : i < size) (hj : j < size) :
    rungPair size k i = rungPair size l j ↔ k = l ∧ i = j := by
  simp only [rungPair, Sym2.eq_iff, point_inj hi hj]
  omega

theorem rungPair_ne_ringPair (hi : i < size) (hj : j < size) :
    rungPair size k i ≠ ringPair size l j := by
  simp only [ne_eq, rungPair, ringPair, Sym2.eq_iff, point_inj hi hj, point_inj hi (next_lt hj)]
  omega

theorem nodup_rim {bands : Nat} (several : 3 ≤ size) (some : 0 < bands) :
    (rim size bands).Nodup := by
  have ring : ∀ k, ((List.range size).map (ringPair size k)).Nodup := by
    intro k
    refine List.Nodup.map_on (fun i hi j hj same => ?_) List.nodup_range
    exact ((ringPair_inj several (List.mem_range.mp hi) (List.mem_range.mp hj)).mp same).2
  refine List.Nodup.append (ring 0) (ring bands) ?_
  intro pair first last
  obtain ⟨i, hi, rfl⟩ := List.mem_map.mp first
  obtain ⟨j, hj, same⟩ := List.mem_map.mp last
  have rings := (ringPair_inj several (List.mem_range.mp hj) (List.mem_range.mp hi)).mp same
  omega

end Band

namespace Banded

variable {size bands : Nat} {m : Mesh α}

/-! ## Quads at a side -/

theorem distinct (banded : Banded size (bands + 1) m) (several : 3 ≤ size) :
    ∀ numbers ∈ m.quads.toList.map Quad.numbers, numbers.Nodup := by
  intro numbers member
  rw [banded.quads] at member
  exact (Band.names_quads (by omega) numbers member).distinct

theorem traversals_eq (banded : Banded size (bands + 1) m) (a b : Nat) :
    m.traversals a b =
      (Band.cells size bands).countP fun c => (a, b) ∈ circuit (Band.quadAt size c.1 c.2) := by
  rw [Mesh.traversals_eq, banded.quads, Band.quads_eq_cells, List.countP_map]
  rfl

/-- A side that belongs to one cell only is taken once, if the cell is there. -/
theorem traversals_of_cell (banded : Banded size (bands + 1) m) {a b k i : Nat}
    (only : ∀ l, ∀ j < size, (a, b) ∈ circuit (Band.quadAt size l j) ↔ l = k ∧ j = i)
    (inside : i < size) : m.traversals a b = if k < bands then 1 else 0 := by
  rw [banded.traversals_eq]
  refine Band.countP_cells (fun l j within => ?_) inside
  rw [decide_eq_true_iff, only l j within]

section Traversals

variable (banded : Banded size (bands + 1) m) (several : 3 ≤ size) {k i : Nat} (inside : i < size)

include banded several inside

theorem traversals_forward :
    m.traversals (k * size + i) (k * size + (i + 1) % size) = if k < bands then 1 else 0 :=
  banded.traversals_of_cell (fun _ _ within => Band.forward_mem_iff several inside within) inside

theorem traversals_backward :
    m.traversals ((k + 1) * size + (i + 1) % size) ((k + 1) * size + i) =
      if k < bands then 1 else 0 := by
  refine banded.traversals_of_cell (fun l j within => ?_) inside
  rw [Band.backward_mem_iff several inside within, Nat.succ_inj]

/-- No band lies ahead of the first ring. -/
theorem traversals_first : m.traversals (0 * size + (i + 1) % size) (0 * size + i) = 0 := by
  rw [banded.traversals_eq, List.countP_eq_zero]
  rintro ⟨l, j⟩ member
  rw [decide_eq_true_iff, Band.backward_mem_iff several inside (Band.mem_cells_iff.mp member).2]
  omega

omit several in
theorem traversals_upward :
    m.traversals (k * size + i) ((k + 1) * size + i) = if k < bands then 1 else 0 := by
  obtain ⟨h, before, rfl⟩ := exists_next inside
  exact banded.traversals_of_cell (fun _ _ within => Band.upward_mem_iff before within) before

omit several in
theorem traversals_downward :
    m.traversals ((k + 1) * size + i) (k * size + i) = if k < bands then 1 else 0 :=
  banded.traversals_of_cell (fun _ _ within => Band.downward_mem_iff inside within) inside

/-- The quads at a side of a ring are the one behind it and the one ahead of it. -/
theorem quadsAt_ringPair (behind : k ≤ bands) :
    m.quadsAt (Band.ringPair size k i) =
      (if k < bands then 1 else 0) + (if k = 0 then 0 else 1) := by
  rw [Band.ringPair, Mesh.quadsAt_eq (banded.distinct several),
    banded.traversals_forward several inside]
  cases k with
  | zero => rw [banded.traversals_first several inside, if_pos rfl]
  | succ k =>
      rw [banded.traversals_backward several inside, if_pos (show k < bands by omega),
        if_neg (Nat.succ_ne_zero k)]

/-- The quads at a rung are the one before it and the one behind it. -/
theorem quadsAt_rungPair (behind : k < bands) : m.quadsAt (Band.rungPair size k i) = 2 := by
  rw [Band.rungPair, Mesh.quadsAt_eq (banded.distinct several),
    banded.traversals_upward inside, banded.traversals_downward inside, if_pos behind]

end Traversals

theorem exists_cell (banded : Banded size (bands + 1) m) {a b : Nat}
    (taken : 0 < m.traversals a b) :
    ∃ k < bands, ∃ i < size, (a, b) ∈ circuit (Band.quadAt size k i) := by
  rw [banded.traversals_eq, List.countP_pos_iff] at taken
  obtain ⟨⟨k, i⟩, member, here⟩ := taken
  obtain ⟨behind, inside⟩ := Band.mem_cells_iff.mp member
  exact ⟨k, behind, i, inside, of_decide_eq_true here⟩

theorem traversals_le_one (banded : Banded size (bands + 1) m) (several : 3 ≤ size) (a b : Nat) :
    m.traversals a b ≤ 1 := by
  rcases Nat.eq_zero_or_pos (m.traversals a b) with none | taken
  · omega
  obtain ⟨k, behind, i, inside, here⟩ := banded.exists_cell taken
  have next := next_lt inside
  simp only [Band.circuit_quadAt, List.mem_cons, List.not_mem_nil, or_false, Prod.mk.injEq] at here
  rcases here with ⟨rfl, rfl⟩ | ⟨rfl, rfl⟩ | ⟨rfl, rfl⟩ | ⟨rfl, rfl⟩
  · rw [banded.traversals_forward several inside, if_pos behind]
  · rw [banded.traversals_upward next, if_pos behind]
  · rw [banded.traversals_backward several inside, if_pos behind]
  · rw [banded.traversals_downward inside, if_pos behind]

/-- There are quads between neighbours in a ring, and between neighbours in a column. -/
theorem quadsAt_pos_iff (banded : Banded size (bands + 1) m) (several : 3 ≤ size)
    (some : 0 < bands) (pair : Sym2 Nat) :
    0 < m.quadsAt pair ↔ Band.IsSide size bands pair := by
  constructor
  · intro taken
    obtain ⟨a, b, rfl, forth⟩ := Mesh.exists_traversal taken
    obtain ⟨k, behind, i, inside, here⟩ := banded.exists_cell forth
    exact Band.isSide_of_mem_circuit behind inside here
  · rintro (⟨k, behind, i, inside, rfl⟩ | ⟨k, behind, i, inside, rfl⟩)
    · rw [banded.quadsAt_ringPair several inside behind]
      rcases Nat.eq_zero_or_pos k with rfl | positive
      · rw [if_pos some]
        omega
      · rw [if_neg (by omega : ¬ k = 0)]
        omega
    · rw [banded.quadsAt_rungPair several inside behind]
      omega

/-- The sides of a single quad are those of the first ring and of the last. -/
theorem quadsAt_eq_one_iff (banded : Banded size (bands + 1) m) (several : 3 ≤ size)
    (some : 0 < bands) (pair : Sym2 Nat) :
    m.quadsAt pair = 1 ↔ pair ∈ Band.rim size bands := by
  simp only [Band.rim, List.mem_append, List.mem_map, List.mem_range]
  constructor
  · intro single
    rcases (banded.quadsAt_pos_iff several some pair).mp (by omega) with
      ⟨k, behind, i, inside, rfl⟩ | ⟨k, behind, i, inside, rfl⟩
    · -- A ring with a ring before it and one behind it lies between two quads.
      rw [banded.quadsAt_ringPair several inside behind] at single
      rcases Nat.eq_zero_or_pos k with rfl | positive
      · exact .inl ⟨i, inside, rfl⟩
      · have last : k = bands := by
          split at single
          · rw [if_neg (by omega : ¬ k = 0)] at single
            omega
          · omega
        exact .inr ⟨i, inside, by rw [last]⟩
    · rw [banded.quadsAt_rungPair several inside behind] at single
      omega
  · rintro (⟨i, inside, rfl⟩ | ⟨i, inside, rfl⟩)
    · rw [banded.quadsAt_ringPair several inside (Nat.zero_le bands), if_pos some, if_pos rfl]
    · rw [banded.quadsAt_ringPair several inside (Nat.le_refl bands),
        if_neg (Nat.lt_irrefl bands), if_neg (by omega)]

/-! ## Edges at a side -/

private theorem count_flatMap_four {β γ : Type} [DecidableEq γ] (l : List β) (f g h t : β → γ)
    (x : γ) :
    (l.flatMap fun b => [f b, g b, h b, t b]).count x =
      l.countP (f · = x) + l.countP (g · = x) + l.countP (h · = x) + l.countP (t · = x) := by
  induction l with
  | nil => rfl
  | cons b l ih =>
      simp only [List.flatMap_cons, List.count_append, List.count_cons, List.count_nil,
        List.countP_cons, ih, beq_iff_eq, decide_eq_true_iff]
      omega

/-- The edges between two points are sides of the first ring, and those that cells bring: the sides
of the ring behind and of the ring ahead, and the rungs on either hand. -/
theorem edgesAt_eq (banded : Banded size (bands + 1) m) (pair : Sym2 Nat) :
    m.edgesAt pair = (List.range size).countP (Band.ringPair size 0 · = pair) +
      ((Band.cells size bands).countP (fun c => Band.ringPair size (c.1 + 1) c.2 = pair) +
        (Band.cells size bands).countP (fun c => Band.ringPair size c.1 c.2 = pair) +
        (Band.cells size bands).countP (fun c => Band.rungPair size c.1 c.2 = pair) +
        (Band.cells size bands).countP
          (fun c => Band.rungPair size c.1 ((c.2 + 1) % size) = pair)) := by
  have pairs : m.edges.toList.map Edge.pair =
      (m.edges.toList.map Edge.numbers).map Band.ends := by
    rw [List.map_map]
    rfl
  rw [Mesh.edgesAt, pairs, banded.edges, Band.edges_eq_cells, List.map_append, List.count_append,
    List.map_map, List.map_flatMap, ← count_flatMap_four]
  congr 1
  rw [List.count_eq_countP, List.countP_map]
  rfl

section Edges

variable (banded : Banded size (bands + 1) m) (several : 3 ≤ size) {k i : Nat} (inside : i < size)

include banded several inside

/-- A side of a ring is drawn when the ring is placed, and again with the ring behind it. -/
theorem edgesAt_ringPair (behind : k ≤ bands) :
    m.edgesAt (Band.ringPair size k i) = 1 + if k < bands then 1 else 0 := by
  have placed : (List.range size).countP (Band.ringPair size 0 · = Band.ringPair size k i) +
      (Band.cells size bands).countP
        (fun c => Band.ringPair size (c.1 + 1) c.2 = Band.ringPair size k i) = 1 := by
    cases k with
    | zero =>
        -- The first ring is placed on its own, and no cell leads up to it.
        rw [countP_of_nodup (x := i) List.nodup_range, if_pos (List.mem_range.mpr inside),
          List.countP_eq_zero.mpr]
        · rintro ⟨l, j⟩ member
          rw [decide_eq_true_iff,
            Band.ringPair_inj several (Band.mem_cells_iff.mp member).2 inside]
          omega
        · intro j member
          rw [decide_eq_true_iff, Band.ringPair_inj several (List.mem_range.mp member) inside]
          exact and_iff_right rfl
    | succ k =>
        rw [List.countP_eq_zero.mpr, Band.countP_cells (k := k) _ inside,
          if_pos (show k < bands by omega)]
        · intro l j within
          rw [decide_eq_true_iff, Band.ringPair_inj several within inside, Nat.succ_inj]
        · intro j member
          rw [decide_eq_true_iff, Band.ringPair_inj several (List.mem_range.mp member) inside]
          omega
  have again : (Band.cells size bands).countP
      (fun c => Band.ringPair size c.1 c.2 = Band.ringPair size k i) =
        if k < bands then 1 else 0 := by
    refine Band.countP_cells (fun l j within => ?_) inside
    rw [decide_eq_true_iff, Band.ringPair_inj several within inside]
  have rungs : ∀ next : Nat → Nat, (∀ j < size, next j < size) →
      (Band.cells size bands).countP
        (fun c => Band.rungPair size c.1 (next c.2) = Band.ringPair size k i) = 0 := by
    intro next within
    rw [List.countP_eq_zero]
    rintro ⟨l, j⟩ member
    rw [decide_eq_true_iff]
    exact Band.rungPair_ne_ringPair (within j (Band.mem_cells_iff.mp member).2) inside
  have here := rungs id fun j within => within
  have there := rungs (fun j => (j + 1) % size) fun j within => next_lt within
  simp only [id_eq] at here
  rw [banded.edgesAt_eq, again, here, there]
  omega

omit several in
/-- A rung is drawn with the side ahead of it and with the side behind it. -/
theorem edgesAt_rungPair (behind : k < bands) : m.edgesAt (Band.rungPair size k i) = 2 := by
  have first : (List.range size).countP (Band.ringPair size 0 · = Band.rungPair size k i) = 0 := by
    rw [List.countP_eq_zero]
    intro j member
    rw [decide_eq_true_iff]
    exact (Band.rungPair_ne_ringPair inside (List.mem_range.mp member)).symm
  have sides : ∀ above : Nat → Nat, (Band.cells size bands).countP
      (fun c => Band.ringPair size (above c.1) c.2 = Band.rungPair size k i) = 0 := by
    intro above
    rw [List.countP_eq_zero]
    rintro ⟨l, j⟩ member
    rw [decide_eq_true_iff]
    exact (Band.rungPair_ne_ringPair inside (Band.mem_cells_iff.mp member).2).symm
  have here : (Band.cells size bands).countP
      (fun c => Band.rungPair size c.1 c.2 = Band.rungPair size k i) = 1 := by
    rw [Band.countP_cells (k := k) _ inside, if_pos behind]
    intro l j within
    rw [decide_eq_true_iff, Band.rungPair_inj within inside]
  have there : (Band.cells size bands).countP
      (fun c => Band.rungPair size c.1 ((c.2 + 1) % size) = Band.rungPair size k i) = 1 := by
    obtain ⟨h, before, rfl⟩ := exists_next inside
    rw [Band.countP_cells (k := k) _ before, if_pos behind]
    intro l j within
    rw [decide_eq_true_iff, Band.rungPair_inj (next_lt within) inside,
      next_inj within before]
  have ahead := sides (· + 1)
  have level := sides id
  simp only [id_eq] at level
  rw [banded.edgesAt_eq, first, ahead, level, here, there]

end Edges

/-- There are edges between neighbours in a ring, and between neighbours in a column. -/
theorem edgesAt_pos_iff (banded : Banded size (bands + 1) m) (several : 3 ≤ size)
    (pair : Sym2 Nat) : 0 < m.edgesAt pair ↔ Band.IsSide size bands pair := by
  constructor
  · intro drawn
    by_contra apart
    have noRing : ∀ k ≤ bands, ∀ i < size, Band.ringPair size k i ≠ pair :=
      fun k behind i inside same => apart (.inl ⟨k, behind, i, inside, same.symm⟩)
    have noRung : ∀ k < bands, ∀ i < size, Band.rungPair size k i ≠ pair :=
      fun k behind i inside same => apart (.inr ⟨k, behind, i, inside, same.symm⟩)
    have noCell : ∀ p : Nat × Nat → Bool, (∀ k < bands, ∀ i < size, p (k, i) = false) →
        (Band.cells size bands).countP p = 0 := by
      intro p none
      rw [List.countP_eq_zero]
      rintro ⟨k, i⟩ member
      obtain ⟨behind, inside⟩ := Band.mem_cells_iff.mp member
      simp [none k behind i inside]
    have noSide : (List.range size).countP (Band.ringPair size 0 · = pair) = 0 := by
      rw [List.countP_eq_zero]
      intro i member
      simpa using noRing 0 (Nat.zero_le _) i (List.mem_range.mp member)
    rw [banded.edgesAt_eq, noSide, noCell, noCell, noCell, noCell] at drawn
    · omega
    · intro k behind i inside
      exact decide_eq_false (noRung k behind _ (next_lt inside))
    · intro k behind i inside
      exact decide_eq_false (noRung k behind i inside)
    · intro k behind i inside
      exact decide_eq_false (noRing k (Nat.le_of_lt behind) i inside)
    · intro k behind i inside
      exact decide_eq_false (noRing (k + 1) behind i inside)
  · rintro (⟨k, behind, i, inside, rfl⟩ | ⟨k, behind, i, inside, rfl⟩)
    · rw [banded.edgesAt_ringPair several inside behind]
      omega
    · rw [banded.edgesAt_rungPair inside behind]
      omega

/-- Two or more rings of three or more points, joined by bands, are a tube. -/
theorem openTube (banded : Banded size (bands + 1) m) (several : 3 ≤ size) (some : 0 < bands) :
    OpenTube size bands m where
  oriented := banded.traversals_le_one several
  shared := by
    intro a b taken
    have sum := Mesh.quadsAt_eq (banded.distinct several) a b
    have forth := banded.traversals_le_one several a b
    have back := banded.traversals_le_one several b a
    rw [← banded.quadsAt_eq_one_iff several some]
    omega
  open_iff := banded.quadsAt_eq_one_iff several some
  rim := Band.nodup_rim several some
  drawn := by
    intro pair
    rw [banded.edgesAt_pos_iff several, banded.quadsAt_pos_iff several some]
  rungs := fun k behind i inside => banded.edgesAt_rungPair inside behind
  rings := by
    intro k behind i inside
    rw [banded.edgesAt_ringPair several inside (Nat.le_of_lt behind), if_pos behind]
  last := by
    intro i inside
    rw [banded.edgesAt_ringPair several inside (Nat.le_refl bands), if_neg (Nat.lt_irrefl bands)]

end Banded

variable [Scalar α]

namespace CoilAxis

/-- A sweep of two or more rings of three or more points is a tube, open at both ends, whose quads
all face the same way. -/
theorem sweep_openTube {axis : CoilAxis α} {m : Mesh α} (swept : axis.sweep.1 = .ok m)
    (rings : 2 ≤ axis.ringCount) (several : 3 ≤ axis.ringSize)
    (fits : axis.ringCount * axis.ringSize < 2 ^ 32) :
    OpenTube axis.ringSize (axis.ringCount - 1) m := by
  have banded := sweep_banded swept fits
  have behind : axis.ringCount = axis.ringCount - 1 + 1 := by omega
  rw [behind] at banded
  exact banded.openTube several (by omega)

theorem drifter_sweep_openTube : ∃ axis m, drifter = .ok axis ∧ axis.sweep.1 = .ok m ∧
    2 ≤ axis.ringCount ∧ 3 ≤ axis.ringSize ∧ axis.ringCount * axis.ringSize < 2 ^ 32 ∧
    OpenTube 4 1 m := by
  obtain ⟨axis, made, _, rings, even⟩ := drifter_made
  obtain ⟨m, swept⟩ := exists_sweep (by decide) even
  have size : axis.ringSize = 4 := even _
  have fits : axis.ringCount * axis.ringSize < 2 ^ 32 := by
    rw [rings, size]
    decide
  have tube := sweep_openTube swept (by omega) (by omega) fits
  rw [rings, size] at tube
  exact ⟨axis, m, made, swept, by omega, by omega, fits, tube⟩

end CoilAxis

end Tendril
