import Tendril.Proofs.Mesh.Consistent
import Tendril.Proofs.Mesh.Parts
import Tendril.Proofs.Plan.Sweep
import Tendril.Proofs.Plan.Yield

/-!
# What a device is given

Whatever a device asks for, be it by a text or by the few values of a preset, the flat meshes that
it is given agree with themselves. They are the flat forms of sweeps, of tubes one by one or joined,
and of boxes, all of them valid meshes.
-/

namespace Tendril

variable {α : Type}

/-! ## The meshes behind the flat forms -/

theorem SweepPlan.isValid_of_few [Scalar α] {p : SweepPlan α} {m : Mesh α}
    (swept : p.mesh = .ok m) (few : m.vertexCount < 2 ^ 32) : m.isValid = true :=
  isValid_mesh swept ((mesh_counts swept).1 ▸ few)

/-- Parts that are valid if their points can be numbered are so when they are joined. -/
theorem Mesh.isValid_mergeAll_of_few {parts : List (Mesh α)}
    (valid : ∀ part ∈ parts, part.vertexCount < 2 ^ 32 → part.isValid = true)
    (few : (mergeAll parts).vertexCount < 2 ^ 32) : (mergeAll parts).isValid = true := by
  rw [vertexCount_mergeAll] at few
  exact isValid_mergeAll few fun part member =>
    valid part member (Nat.lt_of_le_of_lt (vertexCount_le_sum member) few)

section Box

variable [Scalar α] {width height depth : α} {m : Mesh α}

theorem eq_of_cuboid (made : cuboid width height depth = .ok m) : m = {
    vertices := (Cuboid.corners.map fun c => ⟨c.x * width, c.y * depth, c.z * height⟩).toArray
    edges := Cuboid.edges.toArray
    quads := Cuboid.quads.toArray } := by
  unfold cuboid at made
  split at made
  · exact (Except.ok.inj made).symm
  · cases made

theorem cuboid_counts (made : cuboid width height depth = .ok m) :
    m.vertexCount = 8 ∧ m.edgeCount = 12 ∧ m.quadCount = 6 := by
  obtain rfl := eq_of_cuboid made
  exact ⟨rfl, rfl, rfl⟩

/-- The edges and quads of a box do not hang on its size. -/
theorem isValid_cuboid (made : cuboid width height depth = .ok m) : m.isValid = true := by
  have next : m.nextIndex = 8 := by
    rw [Mesh.nextIndex, (cuboid_counts made).1]
    rfl
  have edges : m.edges = Cuboid.edges.toArray := by rw [eq_of_cuboid made]
  have quads : m.quads = Cuboid.quads.toArray := by rw [eq_of_cuboid made]
  rw [Mesh.isValid, next, edges, quads]
  decide +kernel

end Box

/-! ## The entry points -/

namespace Device

theorem reported_eq_ok_iff {β : Type} {run : Except (Failure Float) β} {b : β} :
    reported run = .ok b ↔ run = .ok b := by
  cases run <;> simp [reported, Except.mapError]

/-- What is made of a run that gets through is given when the run is. -/
theorem reported_bind_eq_ok_iff {β γ : Type} {run : Except (Failure Float) β} {made : β → γ}
    {c : γ} : (reported run >>= fun b => pure (made b)) = Except.ok c ↔
      ∃ b, run = .ok b ∧ c = made b := by
  cases run <;> simp [reported, Except.mapError, bind, Except.bind, pure, Except.pure, eq_comm]

theorem sweep_eq_ok_iff {text : String} {f : FlatMesh} : sweep text = .ok f ↔
    ∃ p m, sweepPlan text = .ok p ∧ p.mesh = .ok m ∧ f = .ofMesh m := by
  unfold sweep
  rw [bind_eq_ok_iff]
  simp only [reported_bind_eq_ok_iff, exists_and_left]

variable {σ : Type} [WordSource σ]

theorem consistent_of_segments {p : GrowthPlan Float} {source : σ} {segments : List (Mesh Float)}
    (carried : p.segments source = .ok segments) (delivery : Delivery) :
    ∀ m ∈ delivered delivery segments, (FlatMesh.ofMesh m).Few →
      (FlatMesh.ofMesh m).Consistent := by
  obtain ⟨_, _, _, tubes⟩ := GrowthPlan.segments_eq_ok carried
  intro m member
  refine FlatMesh.consistent_ofMesh ?_
  cases delivery with
  | perSegment => exact (tubes m member).isValid
  | merged =>
      obtain rfl := List.mem_singleton.mp member
      exact Mesh.isValid_mergeAll_of_few fun part among => (tubes part among).isValid

/-- Whatever a device is given agrees with itself, as long as it can count the points, edges and
quads. There are never too many of them in the shell and in a box. -/
theorem output_consistent (text : String) (source : σ) (iterations : UInt32)
    (width height depth : Float) :
    (∀ f, sweep text = .ok f → f.Few → f.Consistent) ∧
      (∀ list, growth text source = .ok list → ∀ f ∈ list.meshes, f.Few → f.Consistent) ∧
      (∀ f, shell = .ok f → f.Consistent) ∧
      (∀ f, koch iterations source = .ok f → f.Few → f.Consistent) ∧
      ∀ f, box width height depth = .ok f → f.Consistent := by
  refine ⟨fun f given => ?_, fun list given f member => ?_, fun f given => ?_, fun f given => ?_,
    fun f given => ?_⟩
  · obtain ⟨p, m, _, swept, rfl⟩ := sweep_eq_ok_iff.mp given
    exact FlatMesh.consistent_ofMesh (SweepPlan.isValid_of_few swept)
  · cases read : growthPlan text with
    | error unread =>
        rw [growth_of_unread read] at given
        cases given
    | ok p =>
        obtain ⟨segments, carried, rfl⟩ := (growth_eq_ok_iff read source).mp given
        obtain ⟨m, drawn, rfl⟩ := List.mem_map.mp (List.mem_toArray.mp member)
        exact consistent_of_segments carried p.delivery m drawn
  · obtain ⟨m, swept, rfl⟩ := reported_bind_eq_ok_iff.mp given
    obtain ⟨points, edges, quads⟩ := SweepPlan.mesh_counts swept
    refine FlatMesh.consistent_ofMesh (SweepPlan.isValid_of_few swept)
      (FlatMesh.few_ofMesh_iff.mpr ?_)
    rw [points, edges, quads]
    decide +kernel
  · obtain ⟨segments, carried, rfl⟩ := reported_bind_eq_ok_iff.mp given
    exact consistent_of_segments carried .merged _ List.mem_cons_self
  · obtain ⟨m, made, rfl⟩ := reported_bind_eq_ok_iff.mp given
    obtain ⟨points, edges, quads⟩ := cuboid_counts made
    refine FlatMesh.consistent_ofMesh (fun _ => isValid_cuboid made)
      (FlatMesh.few_ofMesh_iff.mpr ?_)
    rw [points, edges, quads]
    decide

theorem standard_swept : sweepPlan "\x7b\x7d" = .ok SweepPlan.standard ∧
    ∃ m, (SweepPlan.standard : SweepPlan Float).mesh = .ok m := by
  refine ⟨by decide +kernel, ?_⟩
  rw [← failure?_eq_none_iff, SweepPlan.failure?_mesh]
  decide +kernel

theorem fork_drawn : (fork "F[X]X").expand (Script.ofList [7]) = .ok "F[FF]FF".toList ∧
    ∃ segments, (fork "F[X]X").segments (Script.ofList [7]) = .ok segments := by
  refine ⟨by decide +kernel, ?_⟩
  rw [← failure?_eq_none_iff, GrowthPlan.failure?_segments]
  decide +kernel

theorem box_given : ∃ m, cuboid (1 : Float) 2 3 = .ok m := by
  have sizes : (Scalar.isSize (1 : Float) && Scalar.isSize (2 : Float) &&
      Scalar.isSize (3 : Float)) = true := by decide +kernel
  exact ⟨_, if_pos sizes⟩

theorem standard_output_consistent :
    (∃ f, sweep "\x7b\x7d" = .ok f ∧ f.Few ∧ f.Consistent) ∧
      (∃ list, growth (planText "F[X]X" "per_segment") (Script.ofList [7]) = .ok list ∧
        list.meshes.size = 5 ∧ ∀ f ∈ list.meshes, f.Few ∧ f.Consistent) ∧
      (∃ f, growth (planText "F[X]X" "merged") (Script.ofList [7]) = .ok ⟨#[f]⟩ ∧ f.Few ∧
        f.Consistent) ∧
      (∃ f, shell = .ok f ∧ f.Consistent) ∧
      (∀ f, koch 1 (Script.ofList [7]) = .ok f → f.Few → f.Consistent) ∧
      ∃ f, box 1 2 3 = .ok f ∧ f.Consistent := by
  -- The text asks for a delivery by name; the segments are the same for both.
  have forked : ∀ (output : String) (delivery : Delivery), growthPlan (planText "F[X]X" output) =
      .ok { fork "F[X]X" with delivery } → ∃ segments : List (Mesh Float), segments.length = 5 ∧
        (∀ m ∈ segments, (fork "F[X]X").style.Draws m) ∧
        growth (planText "F[X]X" output) (Script.ofList [7]) =
          .ok ⟨((delivered delivery segments).map .ofMesh).toArray⟩ := by
    intro output delivery read
    obtain ⟨grown, segments, carried⟩ := fork_drawn
    obtain ⟨w, derived, count, tubes⟩ := GrowthPlan.segments_eq_ok carried
    cases grown.symm.trans derived
    exact ⟨segments, count, tubes,
      (growth_eq_ok_iff read (Script.ofList [7])).mpr ⟨segments, carried, rfl⟩⟩
  refine ⟨?_, ?_, ?_, ?_, ?_, ?_⟩
  · obtain ⟨plan, m, swept⟩ := standard_swept
    have given : sweep "\x7b\x7d" = .ok (.ofMesh m) :=
      sweep_eq_ok_iff.mpr ⟨_, m, plan, swept, rfl⟩
    obtain ⟨points, edges, quads⟩ := SweepPlan.mesh_counts swept
    have few : (FlatMesh.ofMesh m).Few := by
      rw [FlatMesh.few_ofMesh_iff, points, edges, quads]
      decide +kernel
    exact ⟨_, given, few,
      (output_consistent "\x7b\x7d" (Script.ofList [7]) 1 1 2 3).1 _ given few⟩
  · obtain ⟨segments, count, tubes, given⟩ := forked "per_segment" .perSegment (by decide +kernel)
    refine ⟨_, given, by simpa [delivered] using count, fun f member => ?_⟩
    have few : f.Few := by
      obtain ⟨m, drawn, rfl⟩ : ∃ m ∈ segments, FlatMesh.ofMesh m = f := by
        simpa [delivered] using member
      obtain ⟨points, edges, quads⟩ := (tubes m drawn).counts
      rw [FlatMesh.few_ofMesh_iff, points, edges, quads]
      decide
    exact ⟨few, (output_consistent (planText "F[X]X" "per_segment") (Script.ofList [7]) 1 1 2
      3).2.1 _ given f member few⟩
  · obtain ⟨segments, count, tubes, given⟩ := forked "merged" .merged (by decide +kernel)
    have few : (FlatMesh.ofMesh (.mergeAll segments)).Few := by
      obtain ⟨points, edges, quads⟩ := TubeStyle.counts_mergeAll tubes
      rw [FlatMesh.few_ofMesh_iff, points, edges, quads, count]
      decide
    exact ⟨_, given, few, (output_consistent (planText "F[X]X" "merged") (Script.ofList [7]) 1 1 2
      3).2.1 _ given _ (by simp [delivered]) few⟩
  · obtain ⟨m, swept⟩ : ∃ m, (SweepPlan.shell : SweepPlan Float).mesh = .ok m := by
      rw [← failure?_eq_none_iff, SweepPlan.failure?_mesh]
      decide +kernel
    have given : shell = .ok (.ofMesh m) := reported_bind_eq_ok_iff.mpr ⟨m, swept, rfl⟩
    exact ⟨_, given, (output_consistent "" (Script.ofList [7]) 1 1 2 3).2.2.1 _ given⟩
  · exact (output_consistent "" (Script.ofList [7]) 1 1 2 3).2.2.2.1
  · obtain ⟨m, made⟩ := box_given
    have given : box 1 2 3 = .ok (.ofMesh m) := reported_bind_eq_ok_iff.mpr ⟨m, made, rfl⟩
    exact ⟨_, given, (output_consistent "" (Script.ofList [7]) 1 1 2 3).2.2.2.2 _ given⟩

end Device

end Tendril
