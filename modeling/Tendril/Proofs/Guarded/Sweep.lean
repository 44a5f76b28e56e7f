import Tendril.Proofs.Guarded.Mesh
import Tendril.Proofs.Plan.Sweep

/-!
# Guarded sweeps

A ring is joined to the one before by looking up both of them at the same places, the last of which
is followed by the first. That makes sense for every ring that the checks of a sweep let through,
whatever the cross-sections are: such a ring has points, and as many as the ring before.
-/

namespace Tendril

open Scalar Guarded

variable {α : Type}

namespace Mesh

/-- Adds side `i` of a ring, and what joins it to the ring before, if there is one. -/
def stitchSide? (last ring : List Index) (m : Mesh α) (i : Nat) : Option (Mesh α) := do
  let next ← remainder? (i + 1) ring.length
  let m := m.addEdge ⟨← ring[i]?, ← ring[next]?⟩
  if last.isEmpty then return m
  else
    let m := m.addEdge ⟨← last[i]?, ← last[next]?⟩
    let m := m.addEdge ⟨← last[i]?, ← ring[i]?⟩
    let m := m.addEdge ⟨← last[next]?, ← ring[next]?⟩
    return m.addQuad ⟨← last[i]?, ← last[next]?, ← ring[next]?, ← ring[i]?⟩

def stitch? (last ring : List Index) (m : Mesh α) : Option (Mesh α) :=
  (List.range ring.length).foldlM (stitchSide? last ring) m

/-- Appends a ring after the ring with the given indices, and answers its own. -/
def addRing? (m : Mesh α) (last : List Index) (points : List (Vec3 α)) :
    Option (List Index × Mesh α) := do
  let (ring, m) := m.addVertices points
  let m ← m.stitch? last ring
  return (ring, m)

/-- The indices of the last ring of a mesh, which has none or ends in one of a known size. -/
inductive EndsIn (m : Mesh α) : Option Nat → List Index → Prop
  | nothing (empty : m.vertexCount = 0) : EndsIn m none []
  | ring {size : Nat} (some : 0 < size) (within : size ≤ m.vertexCount) :
      EndsIn m (.some size) (indicesFrom (m.vertexCount - size) size)

/-- The size of the last ring is that of its indices. -/
theorem EndsIn.size {m : Mesh α} {previous : Option Nat} {last : List Index}
    (ends : m.EndsIn previous last) :
    (if last.isEmpty then none else some last.length) = previous := by
  cases ends with
  | nothing empty => rfl
  | ring large within =>
      rw [if_neg, length_indicesFrom]
      rw [List.isEmpty_iff, ← List.length_eq_zero_iff, length_indicesFrom]
      omega

section Side

variable {size i : Nat}

theorem stitchSide?_first (inside : i < size) (base : Nat) (m : Mesh α) :
    stitchSide? [] (indicesFrom base size) m i =
      some (m.addSides (ringEdges size base false i) []) := by
  have next := next_lt inside
  rw [stitchSide?, length_indicesFrom, remainder?_of_pos (by omega)]
  simp only [Option.bind_eq_bind, Option.bind_some, getElem?_indicesFrom base inside,
    getElem?_indicesFrom base next]
  rfl

theorem stitchSide?_later (inside : i < size) (base : Nat) (m : Mesh α) :
    stitchSide? (indicesFrom (base - size) size) (indicesFrom base size) m i =
      some (m.addSides (ringEdges size base true i) [ringQuad size base i]) := by
  have next := next_lt inside
  have some : (indicesFrom (base - size) size).isEmpty = false := by
    rw [List.isEmpty_eq_false_iff, ← List.length_pos_iff, length_indicesFrom]
    omega
  rw [stitchSide?, length_indicesFrom, remainder?_of_pos (by omega), some]
  simp only [Option.bind_eq_bind, Option.bind_some, getElem?_indicesFrom _ inside,
    getElem?_indicesFrom _ next, addEdge_eq, addQuad_eq, addSides_addSides]
  rfl

end Side

theorem addRing_eq (m : Mesh α) (points : List (Vec3 α)) :
    m.addRing points = addSides { m with vertices := m.vertices.appendList points }
      ((List.range points.length).flatMap (ringEdges points.length m.vertexCount !m.isEmpty))
      (if !m.isEmpty then (List.range points.length).map (ringQuad points.length m.vertexCount)
        else []) := rfl

/-- A first ring, or one of the size of the last, can be joined to the mesh. -/
theorem stitch?_eq {m : Mesh α} {previous : Option Nat} {last : List Index}
    (ends : m.EndsIn previous last) {points : List (Vec3 α)}
    (alike : ∀ size ∈ previous, size = points.length) :
    stitch? last (indicesFrom m.vertexCount points.length)
        { m with vertices := m.vertices.appendList points } = some (m.addRing points) := by
  rw [stitch?, length_indicesFrom, addRing_eq]
  cases ends with
  | nothing empty =>
      have bare : m.isEmpty = true := Array.isEmpty_iff_size_eq_zero.mpr empty
      rw [foldlM_eq_some fun i member m => stitchSide?_first (List.mem_range.mp member) _ m,
        foldl_addSides, bare, List.flatMap_eq_nil_iff.mpr fun _ _ => rfl]
      rfl
  | ring large within =>
      obtain rfl := alike _ rfl
      have occupied : m.isEmpty = false := by
        rw [isEmpty, Array.isEmpty_eq_false_iff, ne_eq, ← Array.size_eq_zero_iff]
        exact fun empty => absurd within (by rw [vertexCount, empty]; omega)
      rw [foldlM_eq_some fun i member m => stitchSide?_later (List.mem_range.mp member) _ m,
        foldl_addSides, occupied, ← List.map_eq_flatMap]
      rfl

theorem addRing?_eq {m : Mesh α} {previous : Option Nat} {last : List Index}
    (ends : m.EndsIn previous last) {points : List (Vec3 α)}
    (alike : ∀ size ∈ previous, size = points.length) :
    m.addRing? last points =
      some (indicesFrom m.vertexCount points.length, m.addRing points) := by
  rw [addRing?, addVertices_eq]
  simp only [stitch?_eq ends alike, Option.bind_eq_bind, Option.bind_some]
  rfl

theorem endsIn_addRing (m : Mesh α) {points : List (Vec3 α)} (some : 0 < points.length) :
    (m.addRing points).EndsIn (.some points.length) (indicesFrom m.vertexCount points.length) := by
  have count := m.vertexCount_addRing points
  have ends := EndsIn.ring (m := m.addRing points) some (by omega)
  rwa [count, Nat.add_sub_cancel] at ends

end Mesh

variable [Scalar α]

/-! ## Rings along an axis -/

namespace CoilAxis

def advance? (axis : CoilAxis α) : Option (CoilAxis α) := do
  return { axis with iteration := ← size? (axis.iteration + 1) }

/-- Places as many more rings as are left, after the ring with the given indices. -/
def sweepRings? : Nat → List Index → Mesh α → CoilAxis α → Guarded (Failure α) (Mesh α)
  | 0, _, m, axis => do
      let _ ← axis.advance?
      return m
  | left + 1, last, m, axis => do
      let axis ← axis.advance?
      let points := axis.ringAt axis.iteration
      match ringFault? (if last.isEmpty then none else some last.length) points.length
        axis.iteration with
      | some failure => throw failure
      | none =>
          let (ring, m) ← m.addRing? last points
          sweepRings? left ring m axis

def sweep? (axis : CoilAxis α) : Guarded (Failure α) (Mesh α) :=
  sweepRings? (axis.maxIterations - 1 - axis.iteration) [] .empty axis

omit [Scalar α] in
theorem advance?_eq {axis : CoilAxis α} (room : axis.iteration + 1 < 2 ^ 64) :
    axis.advance? = some axis.advance := by
  rw [advance?, size?_of_lt room]
  rfl

theorem sweepRings?_eq {left : Nat} {previous : Option Nat} {last : List Index} {m : Mesh α}
    {axis : CoilAxis α} (ends : m.EndsIn previous last)
    (room : axis.iteration + left + 1 < 2 ^ 64) :
    sweepRings? left last m axis = sure (sweepRings left previous m axis).1 := by
  induction left generalizing previous last m axis with
  | zero =>
      rw [sweepRings?, lift_bind (advance?_eq room)]
      rfl
  | succ left ih =>
      rw [sweepRings?, lift_bind (advance?_eq (by omega)), ends.size, sweepRings]
      cases fault : ringFault? previous (axis.advance.ringAt axis.advance.iteration).length
          axis.advance.iteration with
      | some failure => simp only [fault]; rfl
      | none =>
          -- What the check lets through has points, and joins the ring before.
          obtain ⟨points, alike⟩ := ringFault?_eq_none_iff.mp fault
          simp only [fault]
          rw [lift_bind (Mesh.addRing?_eq ends alike)]
          exact ih (m.endsIn_addRing points) (by simp only [advance]; omega)

/-- No sweep breaks down, whatever its cross-sections and parameters are. -/
theorem sweep?_eq {axis : CoilAxis α} (room : axis.iteration + 1 < 2 ^ 64)
    (bound : axis.maxIterations < 2 ^ 64) : axis.sweep? = sure axis.sweep.1 :=
  sweepRings?_eq (.nothing rfl) (by omega)

end CoilAxis

/-! ## Outlines and plans -/

namespace Outline

def squareSide? (n i : Nat) : Option Nat := do
  quotient? (← size? (i * 4)) n

def squarePoints? (radius : α) (n : Nat) : Option (List (Vec2 α)) :=
  let step : α := two * pi / ofCount n
  (List.range n).mapM fun i => do
    let angle : α := ofCount i * step
    let middle := angle - ofCount (← squareSide? n i) * (pi / two) - pi / ofCount 4
    return .ofPolar (radius / sqrt two / cos middle) angle

def points? (outline : Outline) (radius : α) (n : Nat) : Guarded (Failure α) (List (Vec2 α)) :=
  if n < minRingSize then throw (.misuse (.coarseOutline outline n))
  else match outline with
    | .circle => return circlePoints radius n
    | .semiOval => return semiOvalPoints radius n
    | .square => squarePoints? radius n

theorem squareSide?_eq {n i : Nat} (inside : i < n) (few : 4 * n < 2 ^ 64) :
    squareSide? n i = some (squareSide n i) := by
  rw [squareSide?, size?_of_lt (by omega)]
  exact quotient?_of_pos (by omega)

theorem squarePoints?_eq (radius : α) {n : Nat} (few : n < 2 ^ 31) :
    squarePoints? radius n = some (squarePoints radius n) := by
  refine mapM_eq_some fun i member => ?_
  rw [squareSide?_eq (List.mem_range.mp member) (by omega)]
  rfl

theorem points?_eq (outline : Outline) (radius : α) {n : Nat} (few : n < 2 ^ 31) :
    outline.points? radius n = sure (outline.points radius n) := by
  unfold points? points
  split
  · rfl
  · cases outline with
    | circle => rfl
    | semiOval => rfl
    | square =>
        simp only [squarePoints?_eq radius few]
        rfl

end Outline

namespace Profile

def build? (p : Profile α) (steps : Nat) : Guarded (Failure α) (Section α) := do
  let start ← p.outline.points? p.radius p.resolution.toNat
  match p.morphTo with
  | none => return .fixed start
  | some target =>
      let finish ← target.points? p.radius p.resolution.toNat
      let _ ← sure (blend start finish 0 steps)
      return .varying fun n => blendAt start finish (ofCount n / ofCount steps)

theorem build?_eq {p : Profile α} (few : p.resolution.toNat < 2 ^ 31) (steps : Nat) :
    p.build? steps = sure (p.build steps) := by
  unfold build? build
  rw [Outline.points?_eq _ _ few]
  refine sure_bind fun start _ => ?_
  cases p.morphTo with
  | none => rfl
  | some target =>
      simp only [Outline.points?_eq _ _ few]
      exact sure_bind fun finish _ => sure_bind fun _ _ => rfl

end Profile

namespace SweepPlan

def axis? (p : SweepPlan α) : Guarded (Failure α) (CoilAxis α) := do
  let crossSection ← p.profile.build? p.maxIterations.toNat
  let axis ← sure (CoilAxis.make p.start p.tangent p.normal crossSection p.maxIterations.toNat)
  return { axis with
    displacement := p.displacement.param
    coilingRate := p.coilingRate.param
    coilingRadius := p.coilingRadius.param
    scaling := p.scaling.param }

def mesh? (p : SweepPlan α) : Guarded (Failure α) (Mesh α) := do
  let axis ← p.axis?
  axis.sweep?

theorem axis?_eq {p : SweepPlan α} (few : p.profile.resolution.toNat < 2 ^ 31) :
    p.axis? = sure p.axis := by
  unfold axis? axis
  rw [Profile.build?_eq few]
  exact sure_bind fun _ _ => sure_bind fun _ _ => rfl

theorem mesh?_eq {p : SweepPlan α} (few : p.profile.resolution.toNat < 2 ^ 31) :
    p.mesh? = sure p.mesh := by
  unfold mesh? mesh
  rw [axis?_eq few]
  refine sure_bind fun axis made => ?_
  obtain ⟨_, _, bound, start⟩ := axis_eq_ok made
  have word : p.maxIterations.toNat < 2 ^ 64 := p.maxIterations.toNat_lt
  exact CoilAxis.sweep?_eq (by omega) (by omega)

end SweepPlan

end Tendril
