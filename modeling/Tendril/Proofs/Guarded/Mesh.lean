import Tendril.Proofs.Guarded.Basic
import Tendril.Proofs.Mesh.Parts

/-!
# Guarded meshes

Points are put into a mesh one by one, and what is built on them goes by the indices that they are
given. Joining moves indices past the points that are there, which makes sense as long as the words
do not run out.
-/

namespace Tendril

variable {α β : Type}

/-- As many indices as there are points, from the first one on. -/
def indicesFrom (base size : Nat) : List Index :=
  (List.range size).map fun k => UInt32.ofNat (base + k)

@[simp] theorem length_indicesFrom (base size : Nat) : (indicesFrom base size).length = size := by
  simp [indicesFrom]

theorem indicesFrom_succ (base size : Nat) :
    indicesFrom base (size + 1) = UInt32.ofNat base :: indicesFrom (base + 1) size := by
  simp [indicesFrom, List.range_succ_eq_map, Nat.add_assoc, Nat.add_comm 1]

theorem getElem?_indicesFrom (base : Nat) {size i : Nat} (inside : i < size) :
    (indicesFrom base size)[i]? = some (UInt32.ofNat (base + i)) := by
  simp [indicesFrom, inside]

namespace Mesh

/-! ## Building -/

/-- Appends points one by one, and answers their indices. -/
def addVertices (m : Mesh α) : List (Vec3 α) → List Index × Mesh α
  | [] => ([], m)
  | p :: points =>
      let (i, m) := m.addVertex p
      let (indices, m) := m.addVertices points
      (i :: indices, m)

theorem addVertices_eq (m : Mesh α) (points : List (Vec3 α)) :
    m.addVertices points = (indicesFrom m.vertexCount points.length,
      { m with vertices := m.vertices.appendList points }) := by
  induction points generalizing m with
  | nil => rfl
  | cons p points ih =>
      have count : (m.addVertex p).2.vertexCount = m.vertexCount + 1 := Array.size_push _
      have step : m.addVertices (p :: points) =
          (m.nextIndex :: ((m.addVertex p).2.addVertices points).1,
            ((m.addVertex p).2.addVertices points).2) := rfl
      rw [step, ih, count, List.length_cons, indicesFrom_succ]
      rfl

/-- Appends edges and quads. -/
def addSides (m : Mesh α) (edges : List Edge) (quads : List Quad) : Mesh α :=
  { m with edges := m.edges.appendList edges, quads := m.quads.appendList quads }

theorem addSides_nil (m : Mesh α) : m.addSides [] [] = m := rfl

theorem addSides_addSides (m : Mesh α) (e₁ e₂ : List Edge) (q₁ q₂ : List Quad) :
    (m.addSides e₁ q₁).addSides e₂ q₂ = m.addSides (e₁ ++ e₂) (q₁ ++ q₂) := by
  simp [addSides, ← Array.toList_inj]

theorem addEdge_eq (m : Mesh α) (e : Edge) : m.addEdge e = m.addSides [e] [] := rfl

theorem addQuad_eq (m : Mesh α) (q : Quad) : m.addQuad q = m.addSides [] [q] := rfl

/-- What is appended step by step is appended at once. -/
theorem foldl_addSides (edges : β → List Edge) (quads : β → List Quad) (l : List β) (m : Mesh α) :
    l.foldl (fun m b => m.addSides (edges b) (quads b)) m =
      m.addSides (l.flatMap edges) (l.flatMap quads) := by
  induction l generalizing m with
  | nil => rw [List.foldl_nil, List.flatMap_nil, List.flatMap_nil, addSides_nil]
  | cons b l ih =>
      rw [List.foldl_cons, ih, addSides_addSides, List.flatMap_cons, List.flatMap_cons]

end Mesh

/-! ## Joining -/

/-- An index moved on by another. -/
def moved? (offset i : Index) : Option Index := index? (i.toNat + offset.toNat)

theorem moved?_eq {offset i : Index} (fits : i.toNat + offset.toNat < 2 ^ 32) :
    moved? offset i = some (i + offset) := by
  rw [moved?, index?_of_lt fits, UInt32.ofNat_add, UInt32.ofNat_toNat, UInt32.ofNat_toNat]

namespace Edge

def shift? (offset : Index) (e : Edge) : Option Edge := do
  return ⟨← moved? offset e.a, ← moved? offset e.b⟩

theorem shift?_eq {offset : Index} {e : Edge}
    (fits : ∀ i ∈ e.indices, i.toNat + offset.toNat < 2 ^ 32) :
    e.shift? offset = some (e.shift offset) := by
  simp only [indices, List.forall_mem_cons] at fits
  obtain ⟨a, b, _⟩ := fits
  rw [shift?, moved?_eq a, moved?_eq b]
  rfl

end Edge

namespace Quad

def shift? (offset : Index) (q : Quad) : Option Quad := do
  return ⟨← moved? offset q.a, ← moved? offset q.b, ← moved? offset q.c, ← moved? offset q.d⟩

theorem shift?_eq {offset : Index} {q : Quad}
    (fits : ∀ i ∈ q.indices, i.toNat + offset.toNat < 2 ^ 32) :
    q.shift? offset = some (q.shift offset) := by
  simp only [indices, List.forall_mem_cons] at fits
  obtain ⟨a, b, c, d, _⟩ := fits
  rw [shift?, moved?_eq a, moved?_eq b, moved?_eq c, moved?_eq d]
  rfl

end Quad

namespace Mesh

def merge? (m other : Mesh α) : Option (Mesh α) := do
  let offset := m.nextIndex
  let edges ← other.edges.toList.mapM (Edge.shift? offset)
  let quads ← other.quads.toList.mapM (Quad.shift? offset)
  return {
    vertices := m.vertices ++ other.vertices
    edges := m.edges.appendList edges
    quads := m.quads.appendList quads }

def mergeAll? (parts : List (Mesh α)) : Option (Mesh α) := parts.foldlM merge? empty

theorem merge?_eq {m other : Mesh α} (few : m.vertexCount + other.vertexCount < 2 ^ 32)
    (valid : other.isValid = true) : m.merge? other = some (m.merge other) := by
  obtain ⟨edges, quads⟩ := inside_of_isValid valid
  have offset : m.nextIndex.toNat = m.vertexCount := toNat_nextIndex (by omega)
  have fits : ∀ i : Index, i.toNat < other.vertexCount → i.toNat + m.nextIndex.toNat < 2 ^ 32 :=
    fun i inside => by omega
  rw [merge?, mapM_eq_some fun e member => Edge.shift?_eq fun i named =>
    fits i (edges e member i named), mapM_eq_some fun q member => Quad.shift?_eq fun i named =>
    fits i (quads q member i named)]
  simp [merge, ← Array.toList_inj]

/-- Joining valid parts of few points makes sense. -/
theorem mergeAll?_eq {parts : List (Mesh α)} (few : (parts.map vertexCount).sum < 2 ^ 32)
    (valid : ∀ part ∈ parts, part.isValid = true) :
    mergeAll? parts = some (mergeAll parts) := by
  -- Whatever was joined before leaves room for the parts to come.
  suffices joined : ∀ m : Mesh α, m.vertexCount + (parts.map vertexCount).sum < 2 ^ 32 →
      parts.foldlM merge? m = some (parts.foldl merge m) from
    joined empty (by simpa [vertexCount, empty] using few)
  clear few
  intro m room
  induction parts generalizing m with
  | nil => rfl
  | cons part parts ih =>
      rw [List.map_cons, List.sum_cons] at room
      rw [List.foldlM_cons, merge?_eq (by omega) (valid part List.mem_cons_self), List.foldl_cons]
      exact ih (fun other member => valid other (List.mem_cons_of_mem part member)) _
        (by rw [vertexCount_merge]; omega)

end Mesh

end Tendril
