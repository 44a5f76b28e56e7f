import Mathlib.Data.List.Flatten
import Mathlib.Data.List.Perm.Basic
import Mathlib.Tactic.IntervalCases
import Tendril.Proofs.Mesh.Surface
import Tendril.Proofs.Turtle.Tube

/-!
# The surface of a tube

The quads of a tube close up to a cylinder that is open at both ends. The points of one parity make
the ring at either end, and a step around a tube says for each side which quad it belongs to: a rung
belongs to the quads before and behind it, which take it in opposite directions, and a side of a
ring to a single quad. The quads of a tube and its edges are thus counted step by step.
-/

namespace Tendril

variable {α : Type}

namespace Tube

/-- The points of one ring of a tube, in the order in which they lie around it. -/
def ring (size parity : Nat) : List Nat := (List.range size).map fun i => 2 * i + parity

/-- The two points of rung `i`. -/
def rungPair (i : Nat) : Sym2 Nat := s(2 * i, 2 * i + 1)

/-- The pairs of points that follow each other around a ring. -/
def sides (size parity : Nat) : List (Sym2 Nat) :=
  (circuit (ring size parity)).map fun step => s(step.1, step.2)

/-- All of a tube's pairs of neighbours: the rungs, and the steps around both rings. -/
def pairs (size : Nat) : List (Sym2 Nat) :=
  (List.range size).map rungPair ++ (sides size 0 ++ sides size 1)

/-- The two points of side `i` of a ring. -/
def sidePair (size parity i : Nat) : Sym2 Nat :=
  s(2 * i + parity, 2 * ((i + 1) % size) + parity)

end Tube

/-- A mesh of quads and edges that is a cylinder, open at both ends, with so many points around, of
which the even ones lie at one end and the odd ones at the other. -/
structure OpenCylinder (size : Nat) (m : Mesh α) : Prop where
  counts : m.vertexCount = 2 * size ∧ m.edgeCount = 3 * size ∧ m.quadCount = size
  /-- Either ring goes through all points of its parity, and through none of them twice. -/
  ring : ∀ parity < 2, (Tube.ring size parity).length = size ∧ (Tube.ring size parity).Nodup ∧
    ∀ v, v ∈ Tube.ring size parity ↔ v < 2 * size ∧ v % 2 = parity
  /-- The edges are the rungs and the steps around both rings. -/
  edges : (m.edges.toList.map Edge.pair).Perm (Tube.pairs size)
  /-- No two edges join the same points. -/
  once : (m.edges.toList.map Edge.pair).Nodup
  /-- There is an edge between two points when they are a side of a quad. -/
  drawn : ∀ pair, pair ∈ m.edges.toList.map Edge.pair ↔ 0 < m.quadsAt pair
  /-- A rung lies between two quads that take it in opposite directions. -/
  rungs : ∀ i < size, m.quadsAt (Tube.rungPair i) = 2 ∧
    m.traversals (2 * i) (2 * i + 1) = 1 ∧ m.traversals (2 * i + 1) (2 * i) = 1
  /-- A side of a ring lies at one quad. -/
  sides : ∀ parity < 2, ∀ pair ∈ Tube.sides size parity, m.quadsAt pair = 1
  /-- The corners of a quad are four points. -/
  corners : ∀ q ∈ m.quads.toList, q.numbers.Nodup
  /-- Two quads meet at a point. -/
  around : ∀ v < 2 * size, (m.quads.toList.countP fun q => v ∈ q.numbers) = 2

namespace Tube

variable {size i j parity : Nat}

/-! ## Rings -/

theorem length_ring (size parity : Nat) : (ring size parity).length = size := by
  rw [ring, List.length_map, List.length_range]

theorem nodup_ring (size parity : Nat) : (ring size parity).Nodup :=
  List.nodup_range.map fun i j same => by simpa using same

theorem mem_ring_iff (half : parity < 2) {v : Nat} :
    v ∈ ring size parity ↔ v < 2 * size ∧ v % 2 = parity := by
  rw [ring, List.mem_map]
  constructor
  · rintro ⟨i, member, rfl⟩
    rw [List.mem_range] at member
    omega
  · rintro ⟨inside, same⟩
    exact ⟨v / 2, List.mem_range.mpr (by omega), by omega⟩

/-- A step around a ring leads from a place to the one that follows it. -/
theorem sides_eq (size parity : Nat) :
    sides size parity = (List.range size).map (sidePair size parity) := by
  apply List.ext_getElem
  · simp [sides, circuit, length_ring]
  · intro i here there
    simp [sides, circuit, ring, sidePair, List.getElem_rotate]

theorem mem_sides_iff {pair : Sym2 Nat} :
    pair ∈ sides size parity ↔ ∃ i < size, sidePair size parity i = pair := by
  simp [sides_eq]

/-! ## Pairs apart -/

theorem rungPair_inj : rungPair i = rungPair j ↔ i = j := by
  simp only [rungPair, Sym2.eq_iff]
  omega

theorem sidePair_inj (several : 3 ≤ size) (hi : i < size) (hj : j < size) :
    sidePair size parity i = sidePair size parity j ↔ i = j := by
  have ni := next_cases hi
  have nj := next_cases hj
  simp only [sidePair, Sym2.eq_iff]
  omega

theorem rungPair_ne_sidePair : rungPair i ≠ sidePair size parity j := by
  simp only [ne_eq, rungPair, sidePair, Sym2.eq_iff]
  omega

theorem sidePair_ne : sidePair size 0 i ≠ sidePair size 1 j := by
  simp only [ne_eq, sidePair, Sym2.eq_iff]
  omega

theorem mem_pairs_iff {pair : Sym2 Nat} : pair ∈ pairs size ↔
    (∃ i < size, rungPair i = pair) ∨ ∃ parity < 2, ∃ i < size, sidePair size parity i = pair := by
  simp only [pairs, List.mem_append, mem_sides_iff, List.mem_map, List.mem_range]
  refine or_congr_right ⟨?_, ?_⟩
  · rintro (even | odd)
    · exact ⟨0, by omega, even⟩
    · exact ⟨1, by omega, odd⟩
  · rintro ⟨parity, half, side⟩
    interval_cases parity
    · exact .inl side
    · exact .inr side

theorem nodup_pairs (several : 3 ≤ size) : (pairs size).Nodup := by
  have around : ∀ parity, (sides size parity).Nodup := by
    intro parity
    rw [sides_eq]
    refine List.Nodup.map_on (fun i hi j hj same => ?_) List.nodup_range
    exact (sidePair_inj several (List.mem_range.mp hi) (List.mem_range.mp hj)).mp same
  refine (List.nodup_range.map fun i j => rungPair_inj.mp).append
    ((around 0).append (around 1) ?_) ?_
  · intro pair even odd
    obtain ⟨i, _, rfl⟩ := mem_sides_iff.mp even
    obtain ⟨j, _, same⟩ := mem_sides_iff.mp odd
    exact sidePair_ne same.symm
  · intro pair rung side
    obtain ⟨i, _, rfl⟩ := List.mem_map.mp rung
    rcases List.mem_append.mp side with even | odd
    · obtain ⟨j, _, same⟩ := mem_sides_iff.mp even
      exact rungPair_ne_sidePair same.symm
    · obtain ⟨j, _, same⟩ := mem_sides_iff.mp odd
      exact rungPair_ne_sidePair same.symm

/-! ## Which step a side belongs to -/

theorem circuit_quadAt (size j : Nat) : circuit (quadAt size j) =
    [(2 * j, 2 * ((j + 1) % size)), (2 * ((j + 1) % size), 2 * ((j + 1) % size) + 1),
      (2 * ((j + 1) % size) + 1, 2 * j + 1), (2 * j + 1, 2 * j)] := rfl

/-- The quad before a rung takes it from the even point to the odd one. -/
theorem up_mem_iff : (2 * i, 2 * i + 1) ∈ circuit (quadAt size j) ↔ (j + 1) % size = i := by
  simp only [circuit_quadAt, List.mem_cons, List.not_mem_nil, or_false, Prod.mk.injEq]
  omega

/-- The quad behind a rung takes it back. -/
theorem down_mem_iff : (2 * i + 1, 2 * i) ∈ circuit (quadAt size j) ↔ j = i := by
  simp only [circuit_quadAt, List.mem_cons, List.not_mem_nil, or_false, Prod.mk.injEq]
  omega

/-- The even sides are taken onward. -/
theorem even_mem_iff (several : 3 ≤ size) (hi : i < size) (hj : j < size) :
    (2 * i, 2 * ((i + 1) % size)) ∈ circuit (quadAt size j) ↔ j = i := by
  have ni := next_cases hi
  have nj := next_cases hj
  simp only [circuit_quadAt, List.mem_cons, List.not_mem_nil, or_false, Prod.mk.injEq]
  omega

/-- The odd sides are taken back. -/
theorem odd_mem_iff (hi : i < size) (hj : j < size) :
    (2 * ((i + 1) % size) + 1, 2 * i + 1) ∈ circuit (quadAt size j) ↔ j = i := by
  have same := next_inj hi hj
  simp only [circuit_quadAt, List.mem_cons, List.not_mem_nil, or_false, Prod.mk.injEq]
  omega

theorem even_back_notMem (several : 3 ≤ size) (hi : i < size) (hj : j < size) :
    (2 * ((i + 1) % size), 2 * i) ∉ circuit (quadAt size j) := by
  have ni := next_cases hi
  have nj := next_cases hj
  simp only [circuit_quadAt, List.mem_cons, List.not_mem_nil, or_false, Prod.mk.injEq]
  omega

theorem odd_onward_notMem (several : 3 ≤ size) (hi : i < size) (hj : j < size) :
    (2 * i + 1, 2 * ((i + 1) % size) + 1) ∉ circuit (quadAt size j) := by
  have ni := next_cases hi
  have nj := next_cases hj
  simp only [circuit_quadAt, List.mem_cons, List.not_mem_nil, or_false, Prod.mk.injEq]
  omega

/-- The sides of a quad are the rungs before and behind it and a side of either ring. -/
theorem mem_pairs_of_mem_circuit {a b : Nat} (inside : j < size)
    (here : (a, b) ∈ circuit (quadAt size j)) : s(a, b) ∈ pairs size := by
  rw [mem_pairs_iff]
  simp only [circuit_quadAt, List.mem_cons, List.not_mem_nil, or_false, Prod.mk.injEq] at here
  rcases here with ⟨rfl, rfl⟩ | ⟨rfl, rfl⟩ | ⟨rfl, rfl⟩ | ⟨rfl, rfl⟩
  · exact .inr ⟨0, by omega, j, inside, rfl⟩
  · exact .inl ⟨_, next_lt inside, rfl⟩
  · exact .inr ⟨1, by omega, j, inside, Sym2.eq_swap⟩
  · exact .inl ⟨j, inside, Sym2.eq_swap⟩

/-- A point is a corner of the quads before and behind its rung. -/
theorem mem_quadAt_iff (half : parity < 2) :
    2 * i + parity ∈ quadAt size j ↔ j = i ∨ (j + 1) % size = i := by
  simp only [quadAt, List.mem_cons, List.not_mem_nil, or_false]
  omega

/-- One of the steps around a tube has a property that only that step has. -/
theorem countP_steps {p : Nat → Bool} (only : ∀ j < size, p j = true ↔ j = i) (inside : i < size) :
    (List.range size).countP p = 1 := by
  rw [countP_of_nodup (x := i) List.nodup_range, if_pos (List.mem_range.mpr inside)]
  exact fun j member => only j (List.mem_range.mp member)

end Tube

/-- A mesh whose edges and quads are those of the steps around a tube. -/
structure Rolled (size : Nat) (m : Mesh α) : Prop where
  edges : m.edges.toList.map Edge.pair = (List.range size).flatMap fun i =>
    [Tube.rungPair i, Tube.sidePair size 0 i, Tube.sidePair size 1 i]
  quads : m.quads.toList.map Quad.numbers = (List.range size).map (Tube.quadAt size)

namespace Rolled

variable {size : Nat} {m : Mesh α}

theorem perm_edges (rolled : Rolled size m) :
    (m.edges.toList.map Edge.pair).Perm (Tube.pairs size) := by
  rw [rolled.edges, Tube.pairs, Tube.sides_eq, Tube.sides_eq]
  refine (List.map_append_flatMap_perm ..).symm.trans (List.Perm.append_left _ ?_)
  refine (List.map_append_flatMap_perm ..).symm.trans (List.Perm.append_left _ ?_)
  rw [List.map_eq_flatMap]

/-! ## Quads at a side -/

theorem distinct (rolled : Rolled size m) (several : 3 ≤ size) :
    ∀ numbers ∈ m.quads.toList.map Quad.numbers, numbers.Nodup := by
  intro numbers member
  rw [rolled.quads] at member
  exact (Tube.names_quads (by omega) numbers member).distinct

theorem traversals_eq (rolled : Rolled size m) (a b : Nat) : m.traversals a b =
    (List.range size).countP fun j => (a, b) ∈ circuit (Tube.quadAt size j) := by
  rw [Mesh.traversals_eq, rolled.quads, List.countP_map]
  rfl

/-- A side that belongs to one step is taken once. -/
theorem traversals_of_step (rolled : Rolled size m) {a b i : Nat}
    (only : ∀ j < size, (a, b) ∈ circuit (Tube.quadAt size j) ↔ j = i) (inside : i < size) :
    m.traversals a b = 1 := by
  rw [rolled.traversals_eq]
  refine Tube.countP_steps (fun j within => ?_) inside
  rw [decide_eq_true_iff, only j within]

theorem traversals_of_none (rolled : Rolled size m) {a b : Nat}
    (none : ∀ j < size, (a, b) ∉ circuit (Tube.quadAt size j)) : m.traversals a b = 0 := by
  rw [rolled.traversals_eq, List.countP_eq_zero]
  intro j member
  rw [decide_eq_true_iff]
  exact none j (List.mem_range.mp member)

section Sides

variable (rolled : Rolled size m) (several : 3 ≤ size) {i : Nat} (inside : i < size)

include rolled inside

theorem traversals_up : m.traversals (2 * i) (2 * i + 1) = 1 := by
  obtain ⟨h, before, rfl⟩ := exists_next inside
  refine rolled.traversals_of_step (fun j within => ?_) before
  rw [Tube.up_mem_iff, next_inj within before]

theorem traversals_down : m.traversals (2 * i + 1) (2 * i) = 1 :=
  rolled.traversals_of_step (fun _ _ => Tube.down_mem_iff) inside

include several

theorem quadsAt_rungPair : m.quadsAt (Tube.rungPair i) = 2 := by
  rw [Tube.rungPair, Mesh.quadsAt_eq (rolled.distinct several), rolled.traversals_up inside,
    rolled.traversals_down inside]

theorem quadsAt_sidePair {parity : Nat} (half : parity < 2) :
    m.quadsAt (Tube.sidePair size parity i) = 1 := by
  rw [Tube.sidePair, Mesh.quadsAt_eq (rolled.distinct several)]
  interval_cases parity
  · have onward := rolled.traversals_of_step
      (fun j within => Tube.even_mem_iff several inside within) inside
    have back := rolled.traversals_of_none
      fun j within => Tube.even_back_notMem several inside within
    simp only [Nat.add_zero, onward, back]
  · have onward := rolled.traversals_of_none
      fun j within => Tube.odd_onward_notMem several inside within
    have back := rolled.traversals_of_step
      (fun j within => Tube.odd_mem_iff inside within) inside
    simp only [onward, back]

end Sides

/-- There are quads between neighbours, and nowhere else. -/
theorem quadsAt_pos_iff (rolled : Rolled size m) (several : 3 ≤ size) (pair : Sym2 Nat) :
    0 < m.quadsAt pair ↔ pair ∈ Tube.pairs size := by
  constructor
  · intro taken
    obtain ⟨a, b, rfl, forth⟩ := Mesh.exists_traversal taken
    rw [rolled.traversals_eq, List.countP_pos_iff] at forth
    obtain ⟨j, member, here⟩ := forth
    exact Tube.mem_pairs_of_mem_circuit (List.mem_range.mp member) (of_decide_eq_true here)
  · intro neighbours
    rcases Tube.mem_pairs_iff.mp neighbours with ⟨i, inside, rfl⟩ | ⟨parity, half, i, inside, rfl⟩
    · rw [rolled.quadsAt_rungPair several inside]
      omega
    · rw [rolled.quadsAt_sidePair several inside half]
      omega

/-- Around a point lie the quads before and behind its rung. -/
theorem quads_around (rolled : Rolled size m) (several : 3 ≤ size) {v : Nat}
    (inside : v < 2 * size) : (m.quads.toList.countP fun q => v ∈ q.numbers) = 2 := by
  have steps : (m.quads.toList.countP fun q => v ∈ q.numbers) =
      (List.range size).countP fun j => v ∈ Tube.quadAt size j := by
    have numbers : (m.quads.toList.countP fun q => v ∈ q.numbers) =
        (m.quads.toList.map Quad.numbers).countP fun numbers => v ∈ numbers := by
      rw [List.countP_map]
      rfl
    rw [numbers, rolled.quads, List.countP_map]
    rfl
  obtain ⟨i, parity, within, half, rfl⟩ : ∃ i parity, i < size ∧ parity < 2 ∧ 2 * i + parity = v :=
    ⟨v / 2, v % 2, by omega, by omega, by omega⟩
  obtain ⟨h, before, next⟩ := exists_next within
  have behind : (List.range size).countP (fun j => decide (j = i)) = 1 :=
    Tube.countP_steps (fun j _ => decide_eq_true_iff) within
  have ahead : (List.range size).countP (fun j => decide ((j + 1) % size = i)) = 1 := by
    refine Tube.countP_steps (fun j inside => ?_) before
    rw [decide_eq_true_iff, ← next, next_inj inside before]
  have both : (List.range size).countP (fun j => decide (2 * i + parity ∈ Tube.quadAt size j)) =
      (List.range size).countP (fun j => decide (j = i)) +
        (List.range size).countP (fun j => decide ((j + 1) % size = i)) := by
    rw [← countP_or_of_disjoint]
    · apply List.countP_congr
      intro j _
      simp only [decide_eq_true_iff, Bool.or_eq_true, Tube.mem_quadAt_iff half]
    · intro j member same
      rw [decide_eq_true_iff] at same
      subst same
      exact decide_eq_false (next_ne within (by omega))
  rw [steps, both, behind, ahead]

/-- The steps around a tube close up to a cylinder. -/
theorem openCylinder (rolled : Rolled size m) (several : 3 ≤ size)
    (counts : m.vertexCount = 2 * size ∧ m.edgeCount = 3 * size ∧ m.quadCount = size) :
    OpenCylinder size m where
  counts := counts
  ring := fun parity half =>
    ⟨Tube.length_ring size parity, Tube.nodup_ring size parity, fun _ => Tube.mem_ring_iff half⟩
  edges := rolled.perm_edges
  once := rolled.perm_edges.nodup_iff.mpr (Tube.nodup_pairs several)
  drawn := by
    intro pair
    rw [rolled.quadsAt_pos_iff several, rolled.perm_edges.mem_iff]
  rungs := fun i inside => ⟨rolled.quadsAt_rungPair several inside, rolled.traversals_up inside,
    rolled.traversals_down inside⟩
  sides := by
    intro parity half pair side
    obtain ⟨i, inside, rfl⟩ := Tube.mem_sides_iff.mp side
    exact rolled.quadsAt_sidePair several inside half
  corners := fun q member => rolled.distinct several _ (List.mem_map_of_mem member)
  around := fun v inside => rolled.quads_around several inside

end Rolled

/-! ## Tubes -/

theorem Tube.pairs_tubeEdges {size i : Nat} (inside : i < size) (fits : 2 * size < 2 ^ 32) :
    (Mesh.tubeEdges size i).map Edge.pair = [rungPair i, sidePair size 0 i, sidePair size 1 i] := by
  have next := next_lt inside
  simp only [Mesh.tubeEdges, (next_ends inside).1, (next_ends inside).2, List.map_cons,
    List.map_nil, Edge.pair, rungPair, sidePair]
  rw [toNat_ofNat_of_fits (by omega), toNat_ofNat_of_fits (by omega),
    toNat_ofNat_of_fits (by omega), toNat_ofNat_of_fits (by omega)]
  rfl

variable [Scalar α] {start finish normal binormal : Vec3 α} {style : TubeStyle α} {m : Mesh α}

theorem tube_rolled (drawn : tube start finish normal binormal style = .ok m)
    (fits : 2 * style.resolution.toNat < 2 ^ 32) : Rolled style.resolution.toNat m where
  edges := by
    obtain ⟨_, rfl⟩ := tube_eq_ok_iff.mp drawn
    rw [List.map_flatMap]
    apply List.flatMap_congr
    intro i member
    exact Tube.pairs_tubeEdges (List.mem_range.mp member) fits
  quads := (tube_numbers drawn fits).2

/-- A rung leads from the end to the start, with the same offset from the axis at both. -/
theorem tube_vertices (drawn : tube start finish normal binormal style = .ok m) {i : Nat}
    (inside : i < style.resolution.toNat) :
    m.vertices[2 * i]? = some (finish + style.offset normal binormal i) ∧
      m.vertices[2 * i + 1]? = some (start + style.offset normal binormal i) := by
  obtain ⟨_, rfl⟩ := tube_eq_ok_iff.mp drawn
  have rows : ∀ row ∈ (List.range style.resolution.toNat).map fun i =>
      [finish + style.offset normal binormal i, start + style.offset normal binormal i],
      row.length = 2 := List.forall_mem_map.mpr fun _ _ => rfl
  have even := getElem?_flatten_of_length rows i (show 0 < 2 by omega)
  have odd := getElem?_flatten_of_length rows i (show 1 < 2 by omega)
  rw [List.getElem?_map, List.getElem?_range inside, ← List.flatMap_def, Nat.mul_comm] at even odd
  rw [List.getElem?_toArray, List.getElem?_toArray]
  exact ⟨even, odd⟩

/-- A tube in a style with a proper radius and three points around or more is drawn between any two
places, as a cylinder that is open at both ends: the even points lie around the end and the odd ones
around the start, point by point at the same offset. -/
theorem tube_openCylinder (start finish normal binormal : Vec3 α) {style : TubeStyle α}
    (thick : Scalar.isSize style.radius = true) (several : 3 ≤ style.resolution.toNat)
    (fits : 2 * style.resolution.toNat < 2 ^ 32) :
    ∃ m, tube start finish normal binormal style = .ok m ∧
      (∀ i < style.resolution.toNat,
        m.vertices[2 * i]? = some (finish + style.offset normal binormal i) ∧
          m.vertices[2 * i + 1]? = some (start + style.offset normal binormal i)) ∧
      OpenCylinder style.resolution.toNat m := by
  have drawable : style.fault? = none := by
    have round : ¬ style.resolution.toNat < minRingSize := Nat.not_lt.mpr several
    simp [TubeStyle.fault?, thick, round]
  obtain ⟨m, drawn⟩ : ∃ m, tube start finish normal binormal style = .ok m :=
    ⟨_, tube_eq_ok_iff.mpr ⟨drawable, rfl⟩⟩
  exact ⟨m, drawn, fun i inside => tube_vertices drawn inside,
    (tube_rolled drawn fits).openCylinder several (tube_counts drawn)⟩

/-- A tube with five points around. -/
def pipe : TubeStyle Float := ⟨0.25, 5⟩

theorem pipe_openCylinder : Scalar.isSize pipe.radius = true ∧ 3 ≤ 5 ∧ 2 * 5 < 2 ^ 32 ∧
    ∃ m, tube .origin .unitZ .unitX .unitY pipe = .ok m ∧ OpenCylinder 5 m := by
  have thick : Scalar.isSize pipe.radius = true := by decide +kernel
  obtain ⟨m, drawn, _, cylinder⟩ :=
    tube_openCylinder .origin .unitZ .unitX .unitY thick (by decide) (by decide)
  exact ⟨thick, by decide, by decide, m, drawn, cylinder⟩

end Tendril
