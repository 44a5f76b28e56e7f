import Tendril.Proofs.Mesh.Parts
import Tendril.Proofs.Sweep.Tube

/-!
# Sweeps along the way

An axis may be stepped by hand, rewound and swept as often as one likes. All that this leaves behind
is where the axis stands: after any requests it is the axis that it was, at some iteration. So a
rewound axis sweeps as it did in the beginning, and an axis that was stepped on by hand sweeps the
rest of the same rings. The mesh is then the rest of the mesh of all rings, with its numbers moved
back to the start, but for the edges of the ring that has become the first.
-/

namespace Tendril

variable {α : Type}

/-! ## The rest of the rings -/

theorem Quad.numbers_injective : Function.Injective Quad.numbers := by
  intro q r same
  cases q
  cases r
  simpa [Quad.numbers, Quad.indices, UInt32.toNat_inj] using same

theorem Quad.numbers_shift (q : Quad) (offset : Nat) :
    (q.shift (UInt32.ofNat offset)).numbers = asIndices (q.numbers.map (· + offset)) := by
  simp [Quad.numbers, Quad.indices, Quad.shift, asIndices]

namespace Band

theorem quadAt_add (size k j i : Nat) :
    quadAt size (k + j) i = (quadAt size j i).map (· + k * size) := by
  have here : (k + j) * size = j * size + k * size := by rw [Nat.add_mul, Nat.add_comm]
  have there : (k + j + 1) * size = (j + 1) * size + k * size := by
    rw [Nat.add_assoc, Nat.add_mul, Nat.add_comm]
  simp only [quadAt, List.map_cons, List.map_nil, here, there, Nat.add_right_comm]

/-- Without the first `k` bands the quads are those of so many rings fewer, moved up. -/
theorem drop_quads (size k rings : Nat) :
    ((List.range (k + (rings + 1))).flatMap (quads size)).drop (k * size) =
      ((List.range (rings + 1)).flatMap (quads size)).map (List.map (· + k * size)) := by
  have length : ((List.range k).flatMap fun l => (List.range size).map (quadAt size l)).length =
      k * size := by
    simp [List.length_flatMap, List.map_const']
  rw [← Nat.add_assoc, flatMap_quads_succ, flatMap_quads_succ, List.range_add, List.flatMap_append,
    List.drop_left' length, List.flatMap_map, List.map_flatMap]
  apply List.flatMap_congr
  intro j _
  rw [List.map_map]
  exact List.map_congr_left fun i _ => quadAt_add size k j i

end Band

/-- What `part` is of `full` when the first `k` rings are left out: its points and its quads, the
latter with `k * size` taken off their indices, and the edges that the rings left over have on their
own. -/
structure Mesh.Rest (size k rings : Nat) (full part : Mesh α) : Prop where
  vertices : part.vertices.toList = full.vertices.toList.drop (k * size)
  quads : part.quads.toList =
    (full.quads.toList.drop (k * size)).map (Quad.shift (-UInt32.ofNat (k * size)))
  /-- Where there are words for all points, no index is less than what is taken off. -/
  reduced : full.vertexCount < 2 ^ 32 →
    ∀ q ∈ full.quads.toList.drop (k * size), ∀ n ∈ q.numbers, k * size ≤ n
  edges : part.edges.toList.map Edge.numbers =
    ((List.range rings).flatMap (Band.edges size)).map asIndices

namespace Stacked

variable {size k rings : Nat} {full part : Mesh α}

theorem drop_quads (all : Stacked size (k + (rings + 1)) full)
    (left : Stacked size (rings + 1) part) :
    full.quads.toList.drop (k * size) =
      part.quads.toList.map (Quad.shift (UInt32.ofNat (k * size))) := by
  apply Quad.numbers_injective.list_map
  have moved : (part.quads.toList.map (Quad.shift (UInt32.ofNat (k * size)))).map Quad.numbers =
      (part.quads.toList.map Quad.numbers).map fun numbers =>
        asIndices (numbers.map (· + k * size)) := by
    rw [List.map_map, List.map_map]
    exact List.map_congr_left fun q _ => q.numbers_shift (k * size)
  rw [moved, left.quads, List.map_drop, all.quads, ← List.map_drop, Band.drop_quads, List.map_map,
    List.map_map]
  apply List.map_congr_left
  intro numbers _
  simp [asIndices]

/-- The numbers of a mesh of rings are those of its points, however many points there are. -/
theorem numbers_lt (stacked : Stacked size rings full) :
    ∀ q ∈ full.quads.toList, ∀ n ∈ q.numbers, n < rings * size := by
  intro q member n named
  have held : q.numbers ∈ full.quads.toList.map Quad.numbers := List.mem_map_of_mem member
  rw [stacked.quads] at held
  obtain ⟨numbers, among, same⟩ := List.mem_map.mp held
  rw [← same] at named
  obtain ⟨meant, here, rfl⟩ := List.mem_map.mp named
  exact Nat.lt_of_le_of_lt (Nat.mod_le _ _) (Band.quads_inside numbers among meant here)

/-- A mesh of rings that another one ends with is the rest of it. -/
theorem rest (all : Stacked size (k + (rings + 1)) full) (left : Stacked size (rings + 1) part)
    (vertices : part.vertices.toList = full.vertices.toList.drop (k * size)) :
    full.Rest size k (rings + 1) part where
  vertices := vertices
  quads := by
    have back : (Quad.shift (-UInt32.ofNat (k * size))) ∘ (Quad.shift (UInt32.ofNat (k * size))) =
        id := funext fun q => q.shift_neg_shift _
    rw [all.drop_quads left, List.map_map, back, List.map_id]
  reduced := by
    intro few
    rw [Mesh.vertexCount, all.vertices, Nat.add_mul] at few
    rw [all.drop_quads left, List.forall_mem_map]
    intro q member
    rw [Quad.numbers_shift, asIndices, List.map_map, List.forall_mem_map]
    intro n named
    have below := left.numbers_lt q member n named
    have fits : n + k * size < 2 ^ 32 := by omega
    rw [Function.comp_apply, Nat.mod_eq_of_lt fits]
    omega
  edges := left.edges

end Stacked

namespace CoilAxis

variable [Scalar α]

theorem ringsAhead_atIteration (axis : CoilAxis α) (k count : Nat) :
    (axis.atIteration (axis.iteration + k)).ringsAhead (count - k) =
      (axis.ringsAhead count).drop k := by
  have first : (axis.atIteration (axis.iteration + k)).iteration + 1 =
      axis.iteration + 1 + k * 1 := by
    show axis.iteration + k + 1 = _
    omega
  rw [ringsAhead, ringsAhead, ← List.map_drop, List.drop_range', first]
  rfl

/-- A sweep that begins later on, but before the last ring, gets through as well and places the rest
of the same rings. -/
theorem sweep_rest {axis : CoilAxis α} {full : Mesh α} (swept : axis.sweep.1 = .ok full) {k : Nat}
    (behind : k < axis.ringCount) :
    ∃ part, (axis.atIteration (axis.iteration + k)).sweep.1 = .ok part ∧
      full.Rest axis.ringSize k (axis.ringCount - k) part := by
  have all := sweep_stacked swept
  obtain ⟨placed, sized⟩ := sweep_eq_ok_iff.mp swept
  generalize eq : axis.atIteration (axis.iteration + k) = later
  have count : later.ringCount = axis.ringCount - k := by
    rw [← eq, ringCount, ringCount]
    show axis.maxIterations - 1 - (axis.iteration + k) = _
    omega
  have size : later.ringSize = axis.ringSize := by
    rw [← eq, ← (length_pointsAt_of_sweep swept behind).2, Nat.add_right_comm]
    rfl
  have rings : later.ringsAhead later.ringCount = (axis.ringsAhead axis.ringCount).drop k := by
    rw [count, ← eq, ringsAhead_atIteration]
  obtain ⟨part, made⟩ : ∃ part : Mesh α, part =
      (later.ringsAhead later.ringCount).foldl Mesh.addRing .empty := ⟨_, rfl⟩
  have through : later.sweep.1 = .ok part := by
    rw [sweep_eq_ok_iff, rings, size]
    exact ⟨by rw [made, rings], fun ring member => sized ring (List.mem_of_mem_drop member)⟩
  have left := sweep_stacked through
  refine ⟨part, through, ?_⟩
  -- There is a ring left, so that both meshes begin with a ring that brings no quads.
  obtain ⟨rest, fewer⟩ : ∃ rest, axis.ringCount - k = rest + 1 :=
    ⟨axis.ringCount - k - 1, by omega⟩
  have more : axis.ringCount = k + (rest + 1) := by omega
  rw [size, count, fewer] at left
  rw [more] at all
  rw [fewer]
  refine all.rest left ?_
  rw [placed, made, Mesh.foldl_addRing_vertices, Mesh.foldl_addRing_vertices, rings]
  exact (drop_flatten_of_length (fun ring member => (sized ring member).2) k).symm

/-! ## Requests -/

/-- What may be asked of an axis that changes where it stands. -/
inductive Request where
  | iterate
  | reset
  | sweep
  deriving DecidableEq, Repr

/-- The axis after a request, whatever the answer was. -/
def after (axis : CoilAxis α) : Request → CoilAxis α
  | .iterate => axis.advance
  | .reset => axis.reset
  | .sweep => axis.sweep.2

/-- The axis after some requests, one after the other. -/
def afterAll (axis : CoilAxis α) (history : List Request) : CoilAxis α := history.foldl after axis

theorem afterAll_cons (axis : CoilAxis α) (request : Request) (history : List Request) :
    axis.afterAll (request :: history) = (axis.after request).afterAll history := rfl

theorem afterAll_append (axis : CoilAxis α) (earlier later : List Request) :
    axis.afterAll (earlier ++ later) = (axis.afterAll earlier).afterAll later :=
  List.foldl_append

/-- A request moves the axis and does nothing else to it, also when a sweep fails. -/
theorem after_eq (axis : CoilAxis α) (request : Request) :
    axis.after request = axis.atIteration (axis.after request).iteration := by
  cases request with
  | iterate => rfl
  | reset => rfl
  | sweep =>
      show axis.sweep.2 = axis.atIteration axis.sweep.2.iteration
      rcases Set.eq_empty_or_nonempty axis.misfits with none | some
      · rw [sweep_of_fit none]
        rfl
      · rw [sweep_of_isLeast (isLeast_csInf some)]
        rfl

theorem afterAll_eq (axis : CoilAxis α) (history : List Request) :
    axis.afterAll history = axis.atIteration (axis.afterAll history).iteration := by
  induction history generalizing axis with
  | nil => rfl
  | cons request history ih =>
      have moved := ih (axis.after request)
      rw [afterAll_cons]
      generalize ((axis.after request).afterAll history).iteration = n at moved ⊢
      rw [moved, after_eq axis request]
      rfl

theorem afterAll_iterate (axis : CoilAxis α) (k : Nat) :
    axis.afterAll (List.replicate k .iterate) = axis.atIteration (axis.iteration + k) := by
  induction k generalizing axis with
  | zero => rfl
  | succ k ih =>
      have next : axis.advance.iteration + k = axis.iteration + (k + 1) := by
        show axis.iteration + 1 + k = _
        omega
      rw [List.replicate_succ, afterAll_cons]
      show axis.advance.afterAll _ = _
      rw [ih, next]
      rfl

/-- Requests leave an axis as it was, but for where it stands, and what comes of a sweep depends on
that alone. An axis that began at iteration zero, as axes do when they are made, sweeps, once reset,
as if nothing had been asked before. And where the sweep from iteration zero gets through, one that
begins `k` iterations later makes the rest of its mesh. -/
theorem sweep_replay (axis : CoilAxis α) (history : List Request) :
    axis.afterAll history = { axis with iteration := (axis.afterAll history).iteration } ∧
      (∀ other : List Request,
        (axis.afterAll other).iteration = (axis.afterAll history).iteration →
          (axis.afterAll other).sweep = (axis.afterAll history).sweep) ∧
      (axis.iteration = 0 → (axis.afterAll (history ++ [.reset])).sweep = axis.sweep) ∧
      ((axis.afterAll history).iteration = 0 →
        ∀ full, (axis.afterAll history).sweep.1 = .ok full → ∀ k < axis.maxIterations - 1,
          ∃ part, (axis.afterAll (history ++ List.replicate k .iterate)).sweep.1 = .ok part ∧
            full.Rest (axis.crossSection.pointsAt 1).length k (axis.maxIterations - 1 - k)
              part) := by
  have here := afterAll_eq axis history
  refine ⟨here, ?alike, ?rewound, ?rest⟩
  case alike =>
    intro other same
    rw [afterAll_eq axis other, same, ← here]
  case rewound =>
    intro first
    have back : axis.afterAll (history ++ [.reset]) = axis := by
      rw [afterAll_append, here]
      show axis.atIteration 0 = axis
      rw [← first]
      rfl
    rw [back]
  case rest =>
    intro first full swept k behind
    rw [afterAll_append, afterAll_iterate]
    rw [first] at here
    rw [here] at swept ⊢
    exact sweep_rest swept behind

theorem drifter_sweep_replay : ∃ axis full part, drifter = .ok axis ∧
    (axis.afterAll [.sweep, .reset]).sweep.1 = .ok full ∧
      (axis.afterAll [.sweep, .reset, .iterate]).sweep.1 = .ok part ∧
      full.Rest 4 1 3 part := by
  obtain ⟨axis, made, bound, _, even⟩ := drifter_made
  obtain ⟨full, swept⟩ : ∃ full, (axis.afterAll [.sweep, .reset]).sweep.1 = .ok full := by
    rw [afterAll_eq]
    exact exists_sweep (by decide) even
  obtain ⟨_, _, _, rest⟩ := sweep_replay axis [.sweep, .reset]
  obtain ⟨part, swept', left⟩ := rest rfl full swept 1 (by omega)
  rw [even, bound] at left
  exact ⟨axis, full, part, made, swept, swept', left⟩

end CoilAxis

end Tendril
