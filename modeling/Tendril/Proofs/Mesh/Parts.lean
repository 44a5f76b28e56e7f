import Mathlib.Algebra.BigOperators.Group.List.Lemmas
import Tendril.Proofs.Mesh.Merge

/-!
# Parts of joined meshes

Joining is associative and the empty mesh adds nothing, so it makes no difference how parts are
grouped before they are joined. Nothing of a part is lost: who knows how many points, edges and
quads each part had finds all parts again. And the parts keep apart, because what is said of the
points of one part is said of that part's stretch of the points of all.
-/

namespace Tendril

variable {α β γ : Type}

/-! ## Moving to and fro -/

namespace Edge

theorem shift_shift (e : Edge) (a b : Index) : (e.shift b).shift a = e.shift (a + b) := by
  simp [shift, UInt32.add_assoc, UInt32.add_comm a b]

theorem shift_zero (e : Edge) : e.shift 0 = e := by simp [shift]

/-- Words go round, so that what was added to an index can be taken off whatever the index was. -/
theorem shift_neg_shift (e : Edge) (offset : Index) : (e.shift offset).shift (-offset) = e := by
  rw [shift_shift, UInt32.add_left_neg, shift_zero]

end Edge

namespace Quad

theorem shift_shift (q : Quad) (a b : Index) : (q.shift b).shift a = q.shift (a + b) := by
  simp [shift, UInt32.add_assoc, UInt32.add_comm a b]

theorem shift_zero (q : Quad) : q.shift 0 = q := by simp [shift]

theorem shift_neg_shift (q : Quad) (offset : Index) : (q.shift offset).shift (-offset) = q := by
  rw [shift_shift, UInt32.add_left_neg, shift_zero]

end Quad

namespace Mesh

/-! ## Grouping -/

theorem nextIndex_merge (m other : Mesh α) :
    (m.merge other).nextIndex = m.nextIndex + other.nextIndex := by
  rw [nextIndex, vertexCount_merge, UInt32.ofNat_add]
  rfl

theorem merge_assoc (a b c : Mesh α) : (a.merge b).merge c = a.merge (b.merge c) := by
  -- Either way the last mesh comes to lie behind the points of the first two.
  have offset := nextIndex_merge a b
  simp only [merge] at offset ⊢
  simp [offset, Function.comp_def, Edge.shift_shift, Quad.shift_shift, Array.append_assoc]

instance : Std.Associative (merge : Mesh α → Mesh α → Mesh α) := ⟨merge_assoc⟩

@[simp] theorem merge_empty (m : Mesh α) : m.merge empty = m := by simp [merge, empty]

@[simp] theorem empty_merge (m : Mesh α) : empty.merge m = m := by
  have start : (empty : Mesh α).nextIndex = 0 := rfl
  have edges : Edge.shift 0 = id := funext Edge.shift_zero
  have quads : Quad.shift 0 = id := funext Quad.shift_zero
  simp only [merge, start, edges, quads]
  simp [empty]

theorem foldl_merge (m : Mesh α) (parts : List (Mesh α)) :
    parts.foldl merge m = m.merge (mergeAll parts) := by
  conv_lhs => rw [← merge_empty m]
  exact List.foldl_assoc

theorem mergeAll_cons (part : Mesh α) (rest : List (Mesh α)) :
    mergeAll (part :: rest) = part.merge (mergeAll rest) := by
  rw [mergeAll, List.foldl_cons, foldl_merge, empty_merge]

theorem mergeAll_append (front back : List (Mesh α)) :
    mergeAll (front ++ back) = (mergeAll front).merge (mergeAll back) := by
  rw [mergeAll, List.foldl_append, foldl_merge]
  rfl

/-- Parts can be joined in groups first. -/
theorem mergeAll_map_mergeAll (groups : List (List (Mesh α))) :
    mergeAll (groups.map mergeAll) = mergeAll groups.flatten := by
  induction groups with
  | nil => rfl
  | cons group rest ih =>
      rw [List.map_cons, mergeAll_cons, ih, List.flatten_cons, mergeAll_append]

end Mesh

/-! ## Taking apart -/

/-- How much a mesh holds. -/
structure Extent where
  points : Nat
  edges : Nat
  quads : Nat

namespace Mesh

def extent (m : Mesh α) : Extent := ⟨m.vertexCount, m.edgeCount, m.quadCount⟩

/-- The first part of a mesh, if so much of it is the first part. -/
def front (x : Extent) (m : Mesh α) : Mesh α :=
  ⟨m.vertices.take x.points, m.edges.take x.edges, m.quads.take x.quads⟩

/-- What comes behind the first part of a mesh. -/
def behind (x : Extent) (m : Mesh α) : Mesh α :=
  let offset := UInt32.ofNat x.points
  { vertices := m.vertices.drop x.points
    edges := (m.edges.drop x.edges).map (Edge.shift (-offset))
    quads := (m.quads.drop x.quads).map (Quad.shift (-offset)) }

/-- Takes a mesh apart again, into parts that held so much. -/
def split : List Extent → Mesh α → List (Mesh α)
  | [], _ => []
  | x :: rest, whole => whole.front x :: split rest (whole.behind x)

theorem front_merge (m other : Mesh α) : (m.merge other).front m.extent = m := by
  simp [front, extent, merge, vertexCount, edgeCount, quadCount]

theorem behind_merge (m other : Mesh α) : (m.merge other).behind m.extent = other := by
  have edges : (Edge.shift (-m.nextIndex)) ∘ (Edge.shift m.nextIndex) = id :=
    funext fun e => e.shift_neg_shift _
  have quads : (Quad.shift (-m.nextIndex)) ∘ (Quad.shift m.nextIndex) = id :=
    funext fun q => q.shift_neg_shift _
  have same : UInt32.ofNat m.extent.points = m.nextIndex := rfl
  simp only [behind, same]
  simp [extent, merge, vertexCount, edgeCount, quadCount, edges, quads]

/-- Joined parts are found again, each as it was. -/
theorem split_mergeAll (parts : List (Mesh α)) :
    (mergeAll parts).split (parts.map extent) = parts := by
  induction parts with
  | nil => rfl
  | cons part rest ih =>
      rw [mergeAll_cons, List.map_cons, split, front_merge, behind_merge, ih]

end Mesh

/-! ## Stretches -/

theorem pointsBefore_succ (count : β → Nat) {parts : List β} {j : Nat} (inside : j < parts.length) :
    pointsBefore count parts (j + 1) = pointsBefore count parts j + count parts[j] := by
  rw [pointsBefore, List.take_succ_eq_append_getElem inside, List.map_append, List.sum_append,
    List.map_singleton, List.sum_singleton]
  rfl

theorem pointsBefore_mono (count : β → Nat) (parts : List β) {j k : Nat} (before : j ≤ k) :
    pointsBefore count parts j ≤ pointsBefore count parts k :=
  ((List.take_sublist_take_left before).map _).sum_le_sum fun _ _ => Nat.zero_le _

/-- The items of part `j` among those of all parts, where a part has `count` of them. -/
def stretch (count : β → Nat) (parts : List β) (j : Nat) (items : List γ) : List γ :=
  (items.take (pointsBefore count parts (j + 1))).drop (pointsBefore count parts j)

namespace Mesh

/-- The items of a part are found in its stretch, moved past the points of the parts before it. -/
theorem Moves.stretch_mergeAll {items : Mesh α → List β} {move : Index → β → β}
    (moves : Moves items move) {count : Mesh α → Nat} (counted : ∀ m, (items m).length = count m)
    {parts : List (Mesh α)} {j : Nat} (inside : j < parts.length) :
    stretch count parts j (items (Mesh.mergeAll parts)) =
      (items parts[j]).map (move (UInt32.ofNat (pointsBefore vertexCount parts j))) := by
  generalize eq : (parts.mapIdx fun j part =>
    (items part).map (move (UInt32.ofNat (pointsBefore vertexCount parts j)))) = lists
  -- The lists that are joined are as long as the counts say, and the stretch is the one at `j`.
  have lengths : lists.map List.length = parts.map count := by
    rw [← eq]
    exact List.ext_getElem (by simp) fun k _ _ => by simp [counted]
  have within : j < lists.length := by
    rw [← eq, List.length_mapIdx]
    exact inside
  have found := List.drop_take_succ_flatten_eq_getElem lists j within
  rw [lengths] at found
  rw [stretch, moves.mergeAll, eq, pointsBefore, pointsBefore, List.map_take, List.map_take, found]
  simp [← eq]

/-! ## Numbers -/

/-- Items that are moved along with the indices that they are made of. -/
structure Figures (items : Mesh α → List β) (move : Index → β → β)
    (indices : β → List Index) : Prop extends Moves items move where
  moved : ∀ offset b, indices (move offset b) = (indices b).map (· + offset)

theorem figures_edges :
    Figures (fun m : Mesh α => m.edges.toList) Edge.shift Edge.indices where
  toMoves := moves_edges
  moved _ _ := rfl

theorem figures_quads :
    Figures (fun m : Mesh α => m.quads.toList) Quad.shift Quad.indices where
  toMoves := moves_quads
  moved _ _ := rfl

/-- Whether the indices of some items keep below the greatest word when the parts are joined. -/
def Fit (items : Mesh α → List β) (indices : β → List Index) (parts : List (Mesh α)) : Prop :=
  ∀ j (inside : j < parts.length), ∀ b ∈ items parts[j], ∀ i ∈ indices b,
    i.toNat + pointsBefore vertexCount parts j < 2 ^ 32

/-- The numbers that the items of some meshes are made of, one mesh behind the other, each mesh's
moved past the points of the meshes before it. -/
def moved (numbers : Mesh α → List (List Nat)) (parts : List (Mesh α)) : List (List Nat) :=
  (parts.mapIdx fun j part =>
    (numbers part).map fun item => item.map (· + pointsBefore vertexCount parts j)).flatten

namespace Figures

variable {items : Mesh α → List β} {move : Index → β → β} {indices : β → List Index}
  {parts : List (Mesh α)}

theorem numbers_move (figures : Figures items move indices) {b : β} {offset : Nat}
    (fits : ∀ i ∈ indices b, i.toNat + offset < 2 ^ 32) :
    (indices (move (UInt32.ofNat offset) b)).map UInt32.toNat =
      ((indices b).map UInt32.toNat).map (· + offset) := by
  rw [figures.moved, List.map_map, List.map_map]
  exact List.map_congr_left fun i member => toNat_move (fits i member)

theorem numbers_mergeAll (figures : Figures items move indices) (fit : Fit items indices parts) :
    (items (Mesh.mergeAll parts)).map (fun b => (indices b).map UInt32.toNat) =
      Mesh.moved (fun m => (items m).map fun b => (indices b).map UInt32.toNat) parts := by
  simp only [Mesh.moved, List.map_map]
  refine figures.map_mergeAll (fun offset (numbers : List Nat) => numbers.map (· + offset)) ?_
  intro j inside b member
  exact figures.numbers_move (fit j inside b member)

end Figures

/-- Parts that can be joined without any number outgrowing its word. -/
structure Fits (parts : List (Mesh α)) : Prop where
  points : (parts.map vertexCount).sum < 2 ^ 32
  edges : Fit (·.edges.toList) Edge.indices parts
  quads : Fit (·.quads.toList) Quad.indices parts

/-- A mesh that holds what several hold. -/
structure Joins (whole : Mesh α) (parts : List (Mesh α)) : Prop where
  vertices : whole.vertices.toList = parts.flatMap (·.vertices.toList)
  edges : whole.edges.toList.map Edge.numbers = moved (·.edges.toList.map Edge.numbers) parts
  quads : whole.quads.toList.map Quad.numbers = moved (·.quads.toList.map Quad.numbers) parts

theorem Fits.joins {parts : List (Mesh α)} (fits : Fits parts) : (mergeAll parts).Joins parts where
  vertices := vertices_mergeAll parts
  edges := figures_edges.numbers_mergeAll fits.edges
  quads := figures_quads.numbers_mergeAll fits.quads

/-! ## Validity -/

theorem mem_moved {numbers : Mesh α → List (List Nat)} {parts : List (Mesh α)} {item : List Nat} :
    item ∈ moved numbers parts ↔ ∃ j, ∃ inside : j < parts.length, ∃ own ∈ numbers parts[j],
      own.map (· + pointsBefore vertexCount parts j) = item := by
  unfold moved
  rw [List.mem_flatten]
  constructor
  · rintro ⟨list, among, member⟩
    obtain ⟨j, inside, rfl⟩ := List.mem_iff_getElem.mp among
    rw [List.length_mapIdx] at inside
    rw [List.getElem_mapIdx] at member
    exact ⟨j, inside, List.mem_map.mp member⟩
  · rintro ⟨j, inside, own, member, rfl⟩
    refine ⟨_, List.getElem_mem (n := j) (by rwa [List.length_mapIdx]), ?_⟩
    rw [List.getElem_mapIdx]
    exact List.mem_map_of_mem member

/-- What names points of a part names points of the whole. -/
theorem names_of_mem_moved {numbers : Mesh α → List (List Nat)} {parts : List (Mesh α)}
    (names : ∀ part ∈ parts, ∀ item ∈ numbers part, Names part.vertexCount item) :
    ∀ item ∈ moved numbers parts, Names (parts.map vertexCount).sum item := by
  intro item member
  obtain ⟨j, inside, own, within, rfl⟩ := mem_moved.mp member
  have here := names _ (List.getElem_mem inside) own within
  have among := pointsBefore_add_le vertexCount inside
  refine ⟨?_, here.distinct.map (add_left_injective _)⟩
  rw [List.forall_mem_map]
  intro n named
  have below := here.inside n named
  omega

variable {parts : List (Mesh α)}

/-- Valid parts with few points do not even come near the greatest word. -/
theorem fits_of_isValid (few : (parts.map vertexCount).sum < 2 ^ 32)
    (valid : ∀ part ∈ parts, part.isValid = true) : Fits parts := by
  -- A valid part names points of its own, and those of all parts can be numbered.
  have fit : ∀ {γ : Type} {items : Mesh α → List γ} {indices : γ → List Index},
      (∀ part ∈ parts, ∀ b ∈ items part, ∀ i ∈ indices b, i.toNat < part.vertexCount) →
        Fit items indices parts := by
    intro γ items indices own j inside b member i named
    have among := pointsBefore_add_le vertexCount inside
    have below := own _ (List.getElem_mem inside) b member i named
    omega
  exact ⟨few, fit fun part member => (inside_of_isValid (valid part member)).1,
    fit fun part member => (inside_of_isValid (valid part member)).2⟩

theorem isValid_mergeAll (few : (parts.map vertexCount).sum < 2 ^ 32)
    (valid : ∀ part ∈ parts, part.isValid = true) : (mergeAll parts).isValid = true := by
  have joins := (fits_of_isValid few valid).joins
  have names : ∀ part ∈ parts, (∀ item ∈ part.edges.toList.map Edge.numbers,
      Names part.vertexCount item) ∧ ∀ item ∈ part.quads.toList.map Quad.numbers,
        Names part.vertexCount item := by
    intro part member
    have below := vertexCount_le_sum member
    exact (isValid_iff_names (by omega)).mp (valid part member)
  rw [isValid_iff_names (by rwa [vertexCount_mergeAll]), vertexCount_mergeAll, joins.edges,
    joins.quads]
  exact ⟨names_of_mem_moved fun part member => (names part member).1,
    names_of_mem_moved fun part member => (names part member).2⟩

/-- What the items of a part are made of lies among the points of the part. -/
theorem Figures.within_of_mem_stretch {items : Mesh α → List β} {move : Index → β → β}
    {indices : β → List Index} (figures : Figures items move indices) {count : Mesh α → Nat}
    (counted : ∀ m, (items m).length = count m) (few : (parts.map vertexCount).sum < 2 ^ 32)
    {j : Nat} (inside : j < parts.length)
    (own : ∀ b ∈ items parts[j], ∀ i ∈ indices b, i.toNat < parts[j].vertexCount) {n : Nat}
    (member : n ∈ (stretch count parts j (items (Mesh.mergeAll parts))).flatMap
      fun b => (indices b).map UInt32.toNat) :
    pointsBefore vertexCount parts j ≤ n ∧
      n < pointsBefore vertexCount parts j + parts[j].vertexCount := by
  have among := pointsBefore_add_le vertexCount inside
  rw [figures.stretch_mergeAll counted inside, List.flatMap_map, List.mem_flatMap] at member
  obtain ⟨b, here, named⟩ := member
  rw [figures.numbers_move fun i held => by have below := own b here i held; omega] at named
  simp only [List.mem_map, exists_exists_and_eq_and] at named
  obtain ⟨i, held, rfl⟩ := named
  have below := own b here i held
  omega

/-- The numbers that the edges and quads of part `j` name when all parts are joined. -/
def namedBy (parts : List (Mesh α)) (j : Nat) : List Nat :=
  (stretch edgeCount parts j (mergeAll parts).edges.toList).flatMap Edge.numbers ++
    (stretch quadCount parts j (mergeAll parts).quads.toList).flatMap Quad.numbers

/-- The edges and quads of a part keep to its points. -/
theorem within_of_mem_namedBy (few : (parts.map vertexCount).sum < 2 ^ 32)
    (valid : ∀ part ∈ parts, part.isValid = true) {j : Nat} (inside : j < parts.length) :
    ∀ n ∈ namedBy parts j, pointsBefore vertexCount parts j ≤ n ∧
      n < pointsBefore vertexCount parts j + parts[j].vertexCount := by
  obtain ⟨edges, quads⟩ := inside_of_isValid (valid _ (List.getElem_mem inside))
  intro n member
  rcases List.mem_append.mp member with here | here
  · exact figures_edges.within_of_mem_stretch (fun m => rfl) few inside edges here
  · exact figures_quads.within_of_mem_stretch (fun m => rfl) few inside quads here

theorem disjoint_namedBy (few : (parts.map vertexCount).sum < 2 ^ 32)
    (valid : ∀ part ∈ parts, part.isValid = true) {j k : Nat} (inside : k < parts.length)
    (before : j < k) : (namedBy parts j).Disjoint (namedBy parts k) := by
  -- The points of part `j` end where those of the next part begin, or before.
  have first : j < parts.length := by omega
  have apart := pointsBefore_mono vertexCount parts (Nat.succ_le_of_lt before)
  rw [Nat.succ_eq_add_one, pointsBefore_succ vertexCount first] at apart
  intro n here there
  have below := within_of_mem_namedBy few valid first n here
  have above := within_of_mem_namedBy few valid inside n there
  omega

/-- Joining parts lists what they hold, each part moved past the points of those before it. The
parts may be joined in groups first, and all of them are found again in the end. Valid parts make
a valid mesh, in which each part keeps to points of its own. -/
theorem joined_parts (fits : Fits parts) :
    (mergeAll parts).Joins parts ∧
      ((∀ a b c : Mesh α, (a.merge b).merge c = a.merge (b.merge c)) ∧
        (∀ m : Mesh α, m.merge empty = m ∧ empty.merge m = m) ∧
        (∀ front back, front ++ back = parts →
          (mergeAll front).merge (mergeAll back) = mergeAll parts) ∧
        ∀ groups : List (List (Mesh α)), groups.flatten = parts →
          mergeAll (groups.map mergeAll) = mergeAll parts) ∧
      (mergeAll parts).split (parts.map extent) = parts ∧
      ((∀ part ∈ parts, part.isValid = true) →
        (mergeAll parts).isValid = true ∧
          (∀ j (inside : j < parts.length), ∀ n ∈ namedBy parts j,
            pointsBefore vertexCount parts j ≤ n ∧
              n < pointsBefore vertexCount parts j + parts[j].vertexCount) ∧
          ∀ j k, j < k → k < parts.length → (namedBy parts j).Disjoint (namedBy parts k)) := by
  refine ⟨fits.joins, ⟨merge_assoc, fun m => ⟨merge_empty m, empty_merge m⟩, ?_, ?_⟩,
    split_mergeAll parts, fun valid => ⟨isValid_mergeAll fits.points valid, ?_, ?_⟩⟩
  · rintro front back rfl
    exact (mergeAll_append front back).symm
  · rintro groups rfl
    exact mergeAll_map_mergeAll groups
  · exact fun j inside => within_of_mem_namedBy fits.points valid inside
  · exact fun j k before inside => disjoint_namedBy fits.points valid inside before

/-- A tile, nothing, and a stick. -/
def pieces : List (Mesh Float) :=
  [{ vertices := #[⟨0, 0, 0⟩, ⟨1, 0, 0⟩, ⟨1, 1, 0⟩, ⟨0, 1, 0⟩]
     edges := #[⟨0, 1⟩, ⟨1, 2⟩, ⟨2, 3⟩, ⟨3, 0⟩]
     quads := #[⟨0, 1, 2, 3⟩] },
    empty,
    { vertices := #[⟨0, 0, 1⟩, ⟨0, 0, 2⟩]
      edges := #[⟨0, 1⟩]
      quads := #[] }]

theorem pieces_joined_parts :
    Fits pieces ∧ (mergeAll pieces).Joins pieces ∧
      mergeAll ([pieces.take 1, pieces.drop 1].map mergeAll) = mergeAll pieces ∧
      (mergeAll pieces).split [⟨4, 4, 1⟩, ⟨0, 0, 0⟩, ⟨2, 1, 0⟩] = pieces ∧
      (mergeAll pieces).isValid = true ∧ namedBy pieces 2 = [4, 5] ∧
      (namedBy pieces 0).Disjoint (namedBy pieces 2) := by
  have valid : ∀ part ∈ pieces, part.isValid = true := by decide +kernel
  have fits : Fits pieces := fits_of_isValid (by decide +kernel) valid
  obtain ⟨joins, ⟨_, _, _, grouped⟩, parted, whole⟩ := joined_parts fits
  obtain ⟨sound, _, apart⟩ := whole valid
  exact ⟨fits, joins, grouped _ rfl, parted, sound, by decide +kernel,
    apart 0 2 (by decide) (by decide)⟩

end Mesh

end Tendril
