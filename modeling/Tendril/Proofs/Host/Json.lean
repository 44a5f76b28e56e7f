import Tendril.Host.Json
import Tendril.Proofs.Plan.Json

/-!
# Meshes and scenes read back

A mesh that is written down and read again has the same points, edges and quads, whether or not
these name points of it, and a scene has the same meshes under the same handles. Only coordinates
may be in the way: a double that is no number is written as null, which no coordinate is read from,
and of the others each has to come back from its own number.
-/

namespace Tendril

namespace Json

namespace Encodes

variable {β : Type} {json : β → Json} {ofJson? : Json → Option β} {floats : β → List Float}

/-- What is written is read again as it was, or not at all for a double that is no number. -/
theorem decode?_write (encodes : Encodes json ofJson? floats) (b : β) :
    ((∀ x ∈ floats b, Kept x) → decode? ofJson? (json b).write = some b) ∧
      ((∃ x ∈ floats b, x.isFinite = false) → decode? ofJson? (json b).write = none) := by
  rw [Json.decode?_write]
  exact ⟨encodes.reads b, encodes.refuses⟩

end Encodes

/-- An index comes back up to the greatest word. -/
theorem index?_indexJson (i : Index) : index? (indexJson i) = some i := by
  show (if i.toNat < UInt32.size then some (UInt32.ofNat i.toNat) else none) = some i
  rw [if_pos i.toNat_lt, UInt32.ofNat_toNat]

end Json

theorem Edge.ofJson?_json (e : Edge) : Edge.ofJson? e.json = some e := by
  simp [json, indices, ofJson?, Json.index?_indexJson]

theorem Quad.ofJson?_json (q : Quad) : Quad.ofJson? q.json = some q := by
  simp [json, indices, ofJson?, Json.index?_indexJson]

namespace Mesh

/-- The coordinates of a mesh. -/
def floats (m : Mesh Float) : List Float := m.vertices.toList.flatMap Vec3.floats

theorem encodes : Json.Encodes json ofJson? floats where
  reads m kept := by
    have points := Vec3.encodes.list.reads m.vertices.toList kept
    have edges := Json.list?_map Edge.ofJson?_json m.edges.toList
    have quads := Json.list?_map Quad.ofJson?_json m.quads.toList
    rw [ofJson?, json, Json.fields?_record (by simp)]
    simp [Json.required, List.lookup_cons, points, edges, quads]
  finite m other read := by
    rw [ofJson?, json, Json.fields?_record (by simp)] at read
    simp only [Json.required, List.lookup_cons, Option.bind_eq_bind, Option.bind_some,
      String.reduceBEq, Option.bind_eq_some_iff] at read
    obtain ⟨points, there, _⟩ := read
    exact Vec3.encodes.list.finite m.vertices.toList points there

end Mesh

namespace Scene

/-- The coordinates of all meshes of a scene. -/
def floats (s : Scene Float) : List Float := s.meshes.toList.flatMap Mesh.floats

theorem encodes : Json.Encodes json ofJson? floats where
  reads s kept := by
    have meshes := Mesh.encodes.list.reads s.meshes.toList kept
    rw [ofJson?, json, Json.fields?_record (by simp)]
    simp [Json.required, List.lookup_cons, meshes]
  finite s other read := by
    rw [ofJson?, json, Json.fields?_record (by simp)] at read
    simp only [Json.required, List.lookup_cons, Option.bind_eq_bind, Option.bind_some,
      String.reduceBEq, Option.bind_eq_some_iff] at read
    obtain ⟨_, _, meshes, there, _⟩ := read
    exact Mesh.encodes.list.finite s.meshes.toList meshes there

/-- A mesh and a scene come back from the text that they are written to, as far as their coordinates
do: the scene with its name and its meshes in order, so that a handle gives the mesh that it gave
before, and the next mesh gets the handle that it would have got. If a coordinate is no number, the
text is refused. -/
theorem written_read :
    (∀ m : Mesh Float,
      ((∀ x ∈ m.floats, Kept x) → Json.decode? Mesh.ofJson? m.json.write = some m) ∧
        ((∃ x ∈ m.floats, x.isFinite = false) →
          Json.decode? Mesh.ofJson? m.json.write = none)) ∧
      ∀ s : Scene Float,
        ((∀ x ∈ s.floats, Kept x) →
          ∃ back, Json.decode? Scene.ofJson? s.json.write = some back ∧
            back.name = s.name ∧ back.meshes = s.meshes ∧ (∀ id, back.get? id = s.get? id) ∧
            ∀ m, (sink.create m back).1 = (sink.create m s).1) ∧
          ((∃ x ∈ s.floats, x.isFinite = false) →
            Json.decode? Scene.ofJson? s.json.write = none) := by
  refine ⟨Mesh.encodes.decode?_write, fun s => ?_⟩
  obtain ⟨read, refused⟩ := encodes.decode?_write s
  exact ⟨fun kept => ⟨s, read kept, rfl, rfl, fun _ => rfl, fun _ => rfl⟩, refused⟩

/-- A mesh with an edge and a quad that name points it does not have. -/
def stray : Mesh Float where
  vertices := #[⟨-0.0, 0.1, 5e-324⟩, ⟨1e300, -2.5, 0⟩]
  edges := #[⟨0, 1⟩, ⟨1, 1⟩, ⟨7, 0xffffffff⟩]
  quads := #[⟨0, 0xffffffff, 1, 0⟩]

/-- A mesh with a coordinate that is no number. -/
def torn : Mesh Float := { stray with vertices := #[⟨0, 0 / 0, 0⟩] }

/-- A scene with an empty mesh, under a name that has to be escaped. -/
def attic : Scene Float := ⟨"\"\\\n\x01😀", #[stray, .empty, stray]⟩

theorem attic_written_read :
    Json.decode? Mesh.ofJson? stray.json.write = some stray ∧
      Json.decode? Mesh.ofJson? torn.json.write = none ∧
      (∃ back, Json.decode? Scene.ofJson? attic.json.write = some back ∧
        back.name = attic.name ∧ back.get? ⟨1⟩ = some .empty ∧
        (sink.create torn back).1 = .ok ⟨3⟩) ∧
      Json.decode? Scene.ofJson? (attic.add torn).2.json.write = none := by
  refine ⟨?_, ?_, ?_, ?_⟩
  · exact (written_read.1 stray).1 (by decide +kernel)
  · exact (written_read.1 torn).2 (by decide +kernel)
  · obtain ⟨back, read, name, _, same, next⟩ := (written_read.2 attic).1 (by decide +kernel)
    have second : attic.get? ⟨1⟩ = some .empty := rfl
    have fourth : (sink.create torn attic).1 = .ok ⟨3⟩ := rfl
    exact ⟨back, read, name, (same ⟨1⟩).trans second, (next torn).trans fourth⟩
  · exact (written_read.2 (attic.add torn).2).2 (by decide +kernel)

end Scene

end Tendril
