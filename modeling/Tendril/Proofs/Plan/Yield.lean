import Tendril.Proofs.Plan.Delivery
import Tendril.Proofs.Turtle.Depth

/-!
# What a growth comes to

A device can be asked for the word of a plan, or for the meshes that the word draws. Where the word
does not hang on chance, the two answers go together: meshes are drawn from a nested word only, how
many there are and how much they hold is said by the steps ahead in the word, and a plan without a
word has no meshes for the same reason.
-/

namespace Tendril

/-! ## Sizes of flat meshes -/

namespace FlatMesh

/-- A flat mesh of so many points, edges and quads. There can be more edges than a count tells
though there are few points, and the count is then the greatest. -/
structure Counts (f : FlatMesh) (points edges quads : Nat) : Prop where
  sizeVertices : f.vertices.size = 3 * points
  sizeEdges : f.edges.size = 2 * edges
  sizeQuads : f.quads.size = 4 * quads
  sizeTriangles : f.triangles.size = 6 * quads
  vertexCount : f.vertexCount.toNat = points
  edgeCount : f.edgeCount.toNat = min edges (2 ^ 32 - 1)
  quadCount : f.quadCount.toNat = quads

theorem counts_ofMesh {m : Mesh Float} (points : m.vertexCount < 2 ^ 32)
    (quads : m.quadCount < 2 ^ 32) : (ofMesh m).Counts m.vertexCount m.edgeCount m.quadCount where
  sizeVertices := m.size_flatVertices
  sizeEdges := m.size_flatEdges
  sizeQuads := m.size_flatQuads
  sizeTriangles := m.size_flatTriangles
  vertexCount := toNat_deviceCount_of_lt points
  edgeCount := toNat_deviceCount _
  quadCount := toNat_deviceCount_of_lt quads

end FlatMesh

/-! ## Words and meshes -/

/-- The word of a plan that is carried out never closes more branches than it has opened. -/
theorem GrowthPlan.nested_of_segments {α σ : Type} [WordSource σ] [Scalar α] {p : GrowthPlan α}
    {source : σ} {segments : List (Mesh α)} {w : Word} (carried : p.segments source = .ok segments)
    (grown : p.expand source = .ok w) : Nested w := by
  unfold GrowthPlan.segments at carried
  obtain ⟨word, derived, rest⟩ := bind_eq_ok_iff.mp carried
  rw [derived] at grown
  cases grown
  obtain ⟨t, made, drawn⟩ := bind_eq_ok_iff.mp rest
  -- The turtle starts with no frames saved.
  obtain ⟨_, _, rfl⟩ := Turtle.ofSettings_eq_ok made
  have leads := Turtle.depth_draw (Drawing.result_eq_ok_iff.mp drawn).1
  rw [nested_iff_nestedFrom_zero]
  exact ((depthAfter?_eq_some_iff _ _ _).mp leads).1

namespace Device

variable {σ ρ : Type} [WordSource σ] [WordSource ρ] {text : String}

/-- What a device is given for a word: a tube for each step ahead, or all of the tubes in one. -/
def Yields (p : GrowthPlan Float) (w : Word) (list : FlatList) : Prop :=
  let size := p.style.resolution.toNat
  let steps := w.count 'F'
  match p.delivery with
  | .perSegment =>
      list.meshes.size = steps ∧ ∀ mesh ∈ list.meshes, mesh.Counts (2 * size) (3 * size) size
  | .merged =>
      ∃ whole, list.meshes = #[whole] ∧
        whole.Counts (2 * size * steps) (3 * size * steps) (size * steps)

theorem expansion_eq_ok_iff {p : GrowthPlan Float} (read : growthPlan text = .ok p) (source : σ)
    {w : Word} : expansion text source = .ok w ↔ p.expand source = .ok w := by
  rw [expansion_eq read]
  cases p.expand source <;> simp [reported, Except.mapError]

theorem growth_of_unread {unread : Report} (refused : growthPlan text = .error unread)
    (source : σ) : growth text source = .error unread := by
  unfold growth
  rw [refused]
  rfl

theorem expansion_of_unread {unread : Report} (refused : growthPlan text = .error unread)
    (source : σ) : expansion text source = .error unread := by
  unfold expansion
  rw [refused]
  rfl

/-- What keeps a plan from having a word keeps it from being drawn. -/
theorem growth_of_expansion_eq_error {source : σ} {report : Report}
    (refused : expansion text source = .error report) : growth text source = .error report := by
  cases read : growthPlan text with
  | error unread =>
      rw [expansion_of_unread read] at refused
      cases refused
      exact growth_of_unread read source
  | ok p =>
      rw [expansion_eq read] at refused
      rw [growth_eq read]
      unfold GrowthPlan.segments
      cases grown : p.expand source with
      | error failure =>
          rw [grown] at refused
          cases refused
          rfl
      | ok w =>
          rw [grown] at refused
          cases refused

/-- The segments of a plan are delivered as its word says, as long as all points can be numbered. -/
theorem yields_of_segments {p : GrowthPlan Float} {source : σ} {segments : List (Mesh Float)}
    {w : Word} (carried : p.segments source = .ok segments) (grown : p.expand source = .ok w)
    (few : 2 * p.style.resolution.toNat * w.count 'F' < 2 ^ 32) :
    Yields p w ⟨((delivered p.delivery segments).map .ofMesh).toArray⟩ := by
  obtain ⟨word, derived, count, tubes⟩ := GrowthPlan.segments_eq_ok carried
  rw [derived] at grown
  cases grown
  rw [← count] at few
  unfold Yields
  cases p.delivery with
  | perSegment =>
      refine ⟨by simpa [delivered] using count, fun mesh member => ?_⟩
      obtain ⟨m, drawn, rfl⟩ : ∃ m ∈ segments, FlatMesh.ofMesh m = mesh := by
        simpa [delivered] using member
      obtain ⟨points, edges, quads⟩ := (tubes m drawn).counts
      -- Where there is a tube at all, it has no more points than all tubes together.
      have several : 0 < segments.length := List.length_pos_of_mem drawn
      have few : 2 * p.style.resolution.toNat < 2 ^ 32 :=
        Nat.lt_of_le_of_lt (Nat.le_mul_of_pos_right _ several) few
      have counts := FlatMesh.counts_ofMesh (m := m) (by omega) (by omega)
      rwa [points, edges, quads] at counts
  | merged =>
      obtain ⟨points, edges, quads⟩ := TubeStyle.counts_mergeAll tubes
      -- There are fewer quads than points, so their count is told as it is.
      have less : p.style.resolution.toNat * segments.length ≤
          2 * p.style.resolution.toNat * segments.length :=
        Nat.mul_le_mul_right _ (by omega)
      have counts := FlatMesh.counts_ofMesh (m := .mergeAll segments) (by omega) (by omega)
      rw [points, edges, quads, count] at counts
      exact ⟨_, rfl, counts⟩

/-- The word of a settled plan does not hang on the source. -/
theorem expansion_of_settled (settled : ∀ p, growthPlan text = .ok p → p.Settled) (s₁ : σ)
    (s₂ : ρ) : expansion text s₁ = expansion text s₂ := by
  cases read : growthPlan text with
  | error unread => rw [expansion_of_unread read, expansion_of_unread read]
  | ok p => rw [expansion_eq read, expansion_eq read, (settled p read).expand s₁ s₂]

/-- A text that is drawn has a nested word, from whatever source it is asked for, and the meshes are
those that the word says; a text that has no word is not drawn, for the same reason. -/
theorem growth_yield (settled : ∀ p, growthPlan text = .ok p → p.Settled) (s₁ : σ) (s₂ : ρ) :
    (∀ list, growth text s₁ = .ok list →
      ∃ p w, growthPlan text = .ok p ∧ expansion text s₂ = .ok w ∧ Nested w ∧
        (2 * p.style.resolution.toNat * w.count 'F' < 2 ^ 32 → Yields p w list)) ∧
      ∀ report, expansion text s₂ = .error report → growth text s₁ = .error report := by
  rw [← expansion_of_settled settled s₁ s₂]
  refine ⟨?_, fun _ => growth_of_expansion_eq_error⟩
  intro list given
  cases read : growthPlan text with
  | error unread =>
      rw [growth_of_unread read] at given
      cases given
  | ok p =>
      obtain ⟨segments, carried, rfl⟩ := (growth_eq_ok_iff read s₁).mp given
      obtain ⟨w, grown, _⟩ := GrowthPlan.segments_eq_ok carried
      exact ⟨p, w, rfl, (expansion_eq_ok_iff read s₁).mpr grown,
        GrowthPlan.nested_of_segments carried grown, yields_of_segments carried grown⟩

/-- The text of a plan with a rule that has no outputs. -/
def barrenText : String := "[\"F\",[[\"X\",[]]]]"

theorem fork_growth_yield :
    (∃ parts, growth (planText "F[X]X" "per_segment") (Script.ofList [7]) = .ok parts ∧
      parts.meshes.size = 5 ∧ ∀ mesh ∈ parts.meshes, mesh.Counts 8 12 4) ∧
      (∃ whole, growth (planText "F[X]X" "merged") (Script.ofList [7]) = .ok ⟨#[whole]⟩ ∧
        whole.Counts 40 60 20) ∧
      growth barrenText (Script.ofList [7]) = .error ⟨"configuration",
        "Configuration error: production rule for 'X' needs at least one output"⟩ := by
  obtain ⟨segments, carried⟩ : ∃ segments, (fork "F[X]X").segments (Script.ofList [7]) =
      .ok segments := by
    rw [← failure?_eq_none_iff, GrowthPlan.failure?_segments]
    decide +kernel
  have few : 2 * (fork "F[X]X").style.resolution.toNat * "F[FF]FF".toList.count 'F' < 2 ^ 32 := by
    decide
  -- The text asks for a delivery by name; the word and the segments are the same for both.
  have yields : ∀ (output : String) (delivery : Delivery),
      growthPlan (planText "F[X]X" output) = .ok { fork "F[X]X" with delivery } →
      expansion (planText "F[X]X" output) (Script.ofList []) = .ok "F[FF]FF".toList →
        ∃ list, growth (planText "F[X]X" output) (Script.ofList [7]) = .ok list ∧
          Yields { fork "F[X]X" with delivery } "F[FF]FF".toList list := by
    intro output delivery read grown
    have given := (growth_eq_ok_iff read (Script.ofList [7])).mpr ⟨segments, carried, rfl⟩
    have settled : ∀ p, growthPlan (planText "F[X]X" output) = .ok p → p.Settled := by
      intro p same
      cases read.symm.trans same
      exact .inr (by simp [fork, RuleDraft.simple])
    obtain ⟨p, w, same, told, _, sized⟩ :=
      (growth_yield settled (Script.ofList [7]) (Script.ofList [])).1 _ given
    cases read.symm.trans same
    cases grown.symm.trans told
    exact ⟨_, given, sized few⟩
  refine ⟨?_, ?_, ?_⟩
  · exact yields "per_segment" .perSegment (by decide +kernel) (by decide +kernel)
  · obtain ⟨list, given, whole, single, counts⟩ :=
      yields "merged" .merged (by decide +kernel) (by decide +kernel)
    exact ⟨whole, by rw [given, ← single], counts⟩
  · refine (growth_yield ?_ (Script.ofList [7]) (Script.ofList [])).2 _ (by decide +kernel)
    have read : growthPlan barrenText =
        .ok { (GrowthPlan.standard : GrowthPlan Float) with rules := [⟨'X', []⟩] } := by
      decide +kernel
    intro p same
    cases read.symm.trans same
    exact .inr (by simp)

end Device

end Tendril
