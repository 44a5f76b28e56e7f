import Mathlib.Algebra.Order.BigOperators.Group.List
import Mathlib.Algebra.Order.Group.Nat
import Tendril.Proofs.Mesh.Numbers

/-!
# Joined meshes

Joining meshes puts their points one behind the other, so the points of a part start where those
of the parts before it end. Whatever a mesh says of its points is moved along with them: `Moves` is
the law of the lists that a mesh holds for one joining, and a list of parts then comes out with each
part moved past all that stand before it. As long as no index outgrows its word, moving is adding.
-/

namespace Tendril

variable {α β γ : Type}

/-- How many points the parts before position `j` have together. -/
def pointsBefore (count : β → Nat) (parts : List β) (j : Nat) : Nat :=
  ((parts.take j).map count).sum

@[simp] theorem pointsBefore_zero (count : β → Nat) (parts : List β) :
    pointsBefore count parts 0 = 0 := rfl

@[simp] theorem pointsBefore_cons_succ (count : β → Nat) (part : β) (rest : List β) (j : Nat) :
    pointsBefore count (part :: rest) (j + 1) = count part + pointsBefore count rest j := rfl

/-- The points of a part lie among the points of all. -/
theorem pointsBefore_add_le (count : β → Nat) {parts : List β} {j : Nat}
    (inside : j < parts.length) :
    pointsBefore count parts j + count parts[j] ≤ (parts.map count).sum := by
  induction parts generalizing j with
  | nil => exact absurd inside (Nat.not_lt_zero j)
  | cons part rest ih =>
      rw [List.map_cons, List.sum_cons]
      cases j with
      | zero => simp
      | succ j =>
          have later := ih (Nat.lt_of_succ_lt_succ inside)
          rw [pointsBefore_cons_succ, List.getElem_cons_succ]
          omega

namespace Mesh

/-! ## Counting -/

/-- What adds up when two meshes are joined adds up over all parts. -/
theorem mergeAll_sum {count : Mesh α → Nat} (none : count empty = 0)
    (both : ∀ m other, count (m.merge other) = count m + count other) (parts : List (Mesh α)) :
    count (mergeAll parts) = (parts.map count).sum := by
  have onward : ∀ m : Mesh α, count (parts.foldl merge m) = count m + (parts.map count).sum := by
    induction parts with
    | nil => exact fun _ => rfl
    | cons part rest ih =>
        intro m
        rw [List.foldl_cons, ih, both, List.map_cons, List.sum_cons, Nat.add_assoc]
  rw [mergeAll, onward, none, Nat.zero_add]

theorem vertexCount_merge (m other : Mesh α) :
    (m.merge other).vertexCount = m.vertexCount + other.vertexCount := Array.size_append

theorem vertexCount_mergeAll (parts : List (Mesh α)) :
    (mergeAll parts).vertexCount = (parts.map vertexCount).sum :=
  mergeAll_sum rfl vertexCount_merge parts

theorem edgeCount_mergeAll (parts : List (Mesh α)) :
    (mergeAll parts).edgeCount = (parts.map edgeCount).sum :=
  mergeAll_sum rfl (fun _ _ => by simp [edgeCount, merge]) parts

theorem quadCount_mergeAll (parts : List (Mesh α)) :
    (mergeAll parts).quadCount = (parts.map quadCount).sum :=
  mergeAll_sum rfl (fun _ _ => by simp [quadCount, merge]) parts

/-- A part has no more points than all parts have together. -/
theorem vertexCount_le_sum {parts : List (Mesh α)} {part : Mesh α} (member : part ∈ parts) :
    part.vertexCount ≤ (parts.map vertexCount).sum :=
  List.single_le_sum (fun _ _ => Nat.zero_le _) _ (List.mem_map_of_mem member)

/-! ## Listing -/

/-- Items that a mesh lists, and that joining lists one behind the other with those of the second
mesh moved past the points of the first. -/
structure Moves (items : Mesh α → List β) (move : Index → β → β) : Prop where
  empty : items .empty = []
  merge : ∀ m other, items (m.merge other) = items m ++ (items other).map (move m.nextIndex)

namespace Moves

variable {items : Mesh α → List β} {move : Index → β → β}

theorem foldl_merge (moves : Moves items move) (m : Mesh α) (parts : List (Mesh α)) :
    items (parts.foldl Mesh.merge m) = items m ++ (parts.mapIdx fun j part => (items part).map
      (move (UInt32.ofNat (m.vertexCount + pointsBefore vertexCount parts j)))).flatten := by
  induction parts generalizing m with
  | nil => simp
  | cons part rest ih =>
      rw [List.foldl_cons, ih, moves.merge, List.mapIdx_cons, List.flatten_cons, List.append_assoc]
      simp only [vertexCount_merge, pointsBefore_zero, pointsBefore_cons_succ, Nat.add_zero,
        Nat.add_assoc]
      rfl

/-- Every part is moved past the points of all parts before it. -/
theorem mergeAll (moves : Moves items move) (parts : List (Mesh α)) :
    items (Mesh.mergeAll parts) = (parts.mapIdx fun j part =>
      (items part).map (move (UInt32.ofNat (pointsBefore vertexCount parts j)))).flatten := by
  have whole := moves.foldl_merge .empty parts
  rw [moves.empty, List.nil_append] at whole
  simp only [show (Mesh.empty : Mesh α).vertexCount = 0 from rfl, Nat.zero_add] at whole
  exact whole

end Moves

theorem moves_edges : Moves (fun m : Mesh α => m.edges.toList) Edge.shift where
  empty := rfl
  merge m other := by simp [Mesh.merge]

theorem moves_quads : Moves (fun m : Mesh α => m.quads.toList) Quad.shift where
  empty := rfl
  merge m other := by simp [Mesh.merge]

theorem moves_vertices : Moves (fun m : Mesh α => m.vertices.toList) fun _ p => p where
  empty := rfl
  merge m other := by simp [Mesh.merge]

/-- Points are not moved by being listed behind others. -/
theorem vertices_mergeAll (parts : List (Mesh α)) :
    (mergeAll parts).vertices.toList = parts.flatMap (·.vertices.toList) := by
  rw [moves_vertices.mergeAll, List.flatMap_def]
  congr 1
  exact List.ext_getElem (by simp) fun _ _ _ => by simp

/-- What is said of each item of a list in indices is moved when the items are. -/
theorem Moves.flatMap {items : Mesh α → List β} {move : Index → β → β} (moves : Moves items move)
    {indices : β → List Index}
    (moved : ∀ offset b, indices (move offset b) = (indices b).map (· + offset)) :
    Moves (fun m => (items m).flatMap indices) fun offset i => i + offset where
  empty := by rw [moves.empty, List.flatMap_nil]
  merge m other := by
    rw [moves.merge, List.flatMap_append, List.flatMap_map, List.map_flatMap]
    simp only [moved]

/-- Moving an index adds to its number, up to the greatest word. -/
theorem toNat_move {i : Index} {offset : Nat} (fits : i.toNat + offset < 2 ^ 32) :
    (i + UInt32.ofNat offset).toNat = i.toNat + offset := by
  rw [UInt32.toNat_add, toNat_ofNat_of_fits (by omega), Nat.mod_eq_of_lt fits]

/-- What is seen of an item changes with the number of points before its part, if that is how it
changes when the item is moved. -/
theorem Moves.map_mergeAll {items : Mesh α → List β} {move : Index → β → β}
    (moves : Moves items move) {see : β → γ} (change : Nat → γ → γ) {parts : List (Mesh α)}
    (changed : ∀ j (inside : j < parts.length), ∀ b ∈ items parts[j],
      see (move (UInt32.ofNat (pointsBefore vertexCount parts j)) b) =
        change (pointsBefore vertexCount parts j) (see b)) :
    (items (Mesh.mergeAll parts)).map see = (parts.mapIdx fun j part =>
      (items part).map fun b => change (pointsBefore vertexCount parts j) (see b)).flatten := by
  rw [moves.mergeAll, List.map_flatten]
  congr 1
  refine List.ext_getElem (by simp) fun j _ behind => ?_
  rw [List.length_mapIdx] at behind
  rw [List.getElem_map, List.getElem_mapIdx, List.getElem_mapIdx, List.map_map]
  exact List.map_congr_left (changed j behind)

/-- Where the points of all parts can be numbered, an index of a part goes up by the number of
points before it. -/
theorem Moves.numbers_mergeAll {indices : Mesh α → List Index}
    (moves : Moves indices fun offset i => i + offset) {parts : List (Mesh α)}
    (few : (parts.map vertexCount).sum < 2 ^ 32)
    (inside : ∀ part ∈ parts, ∀ i ∈ indices part, i.toNat < part.vertexCount) :
    (indices (Mesh.mergeAll parts)).map UInt32.toNat = (parts.mapIdx fun j part =>
      (indices part).map fun i => i.toNat + pointsBefore vertexCount parts j).flatten := by
  refine moves.map_mergeAll (fun offset n => n + offset) fun j behind i member => ?_
  have among := pointsBefore_add_le vertexCount behind
  have below := inside parts[j] (List.getElem_mem behind) i member
  exact toNat_move (by omega)

end Mesh

end Tendril
