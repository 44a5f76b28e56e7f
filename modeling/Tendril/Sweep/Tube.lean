import Tendril.Mesh.Basic
import Tendril.Sweep.Axis

/-!
# Sweeping

Rings are placed one after the other and every ring is joined to the one before, point to point, by
edges and quads. A ring without points, or with more or fewer than the ring before, stops the sweep
where it stands.
-/

namespace Tendril

variable {α : Type}

namespace Mesh

/-- The edges that point `i` of a ring of `size` points starting at index `base` adds. When there is
a ring before, its side and the two rungs that lead up from it come along. -/
def ringEdges (size base : Nat) (joined : Bool) (i : Nat) : List Edge :=
  let next := (i + 1) % size
  let here (k : Nat) : Index := UInt32.ofNat (base + k)
  let before (k : Nat) : Index := UInt32.ofNat (base - size + k)
  ⟨here i, here next⟩ ::
    if joined then
      [⟨before i, before next⟩, ⟨before i, here i⟩, ⟨before next, here next⟩]
    else []

/-- The quad between side `i` of a ring and the same side of the ring before. -/
def ringQuad (size base i : Nat) : Quad :=
  let next := (i + 1) % size
  let here (k : Nat) : Index := UInt32.ofNat (base + k)
  let before (k : Nat) : Index := UInt32.ofNat (base - size + k)
  ⟨before i, before next, here next, here i⟩

/-- Appends a ring. The points before it, if any, end in a ring of the same size. -/
def addRing (m : Mesh α) (ring : List (Vec3 α)) : Mesh α :=
  let size := ring.length
  let base := m.vertexCount
  let joined := !m.isEmpty
  let sides := List.range size
  { vertices := m.vertices.appendList ring
    edges := m.edges.appendList (sides.flatMap (ringEdges size base joined))
    quads := m.quads.appendList (if joined then sides.map (ringQuad size base) else []) }

end Mesh

variable [Scalar α]

namespace CoilAxis

/-- What keeps a ring of `size` points from joining a ring of `previous` points. -/
def ringFault? (previous : Option Nat) (size iteration : Nat) : Option (Failure α) :=
  if size = 0 then some (.misuse (.emptySection iteration))
  else match previous with
    | none => none
    | some expected =>
        if size ≠ expected then some (.mismatch (.ring iteration) expected size) else none

/-- Places as many more rings as are left, after a ring of `previous` points. -/
def sweepRings : Nat → Option Nat → Mesh α → CoilAxis α → Except (Failure α) (Mesh α) × CoilAxis α
  | 0, _, m, axis => (.ok m, axis.advance)
  | left + 1, previous, m, axis =>
      let axis := axis.advance
      let ring := axis.ringAt axis.iteration
      match ringFault? previous ring.length axis.iteration with
      | some failure => (.error failure, axis)
      | none => sweepRings left (some ring.length) (m.addRing ring) axis

/-- The mesh of all rings behind the current iteration, and the axis as the sweep leaves it. -/
def sweep (axis : CoilAxis α) : Except (Failure α) (Mesh α) × CoilAxis α :=
  sweepRings (axis.maxIterations - 1 - axis.iteration) none .empty axis

end CoilAxis

end Tendril
