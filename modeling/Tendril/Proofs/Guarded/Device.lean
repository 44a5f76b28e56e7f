import Tendril.Proofs.Guarded.Sweep
import Tendril.Proofs.Guarded.Turtle
import Tendril.Proofs.Plan.Kind

/-!
# Guarded entry points

Whatever a device asks for, it is given flat meshes or a word, or a report of one of a few kinds: no
step on the way breaks down. The points around a ring must be fewer than half of the words, and
where segments are joined, all of their points together must not run out of words.
-/

namespace Tendril

open Guarded Scalar

namespace FlatList

/-- Keeps the flat form of a mesh. Its handle is one less than the meshes that are kept then. -/
def add? (l : FlatList) (m : Mesh Float) : Option (Nat × FlatList) := do
  let meshes := l.meshes.push (.ofMesh m)
  return (← difference? meshes.size 1, ⟨meshes⟩)

def addAll? (l : FlatList) (meshes : List (Mesh Float)) : Option FlatList :=
  meshes.foldlM (fun l m => do return (← l.add? m).2) l

/-- Hands meshes over one by one or joined together. -/
def submit? (delivery : Delivery) (meshes : List (Mesh Float)) : Option FlatList :=
  match delivery with
  | .perSegment => empty.addAll? meshes
  | .merged => do empty.addAll? [← Mesh.mergeAll? meshes]

theorem add?_eq (l : FlatList) (m : Mesh Float) : l.add? m = some (l.add m) := by
  rw [add?, difference?_of_le (by rw [Array.size_push]; omega), Array.size_push,
    Nat.add_sub_cancel]
  rfl

theorem addAll?_eq (l : FlatList) (meshes : List (Mesh Float)) :
    l.addAll? meshes = some ⟨l.meshes ++ (meshes.map FlatMesh.ofMesh).toArray⟩ := by
  induction meshes generalizing l with
  | nil => simp [addAll?]
  | cons m rest ih =>
      rw [addAll?, List.foldlM_cons, add?_eq]
      show (l.add m).2.addAll? rest = _
      rw [ih]
      simp [add]

/-- What is handed over is delivered, as long as all points can be numbered. -/
theorem submit?_eq {meshes : List (Mesh Float)} (few : (meshes.map Mesh.vertexCount).sum < 2 ^ 32)
    (valid : ∀ m ∈ meshes, m.isValid = true) (delivery : Delivery) :
    submit? delivery meshes =
      some ⟨((Device.delivered delivery meshes).map FlatMesh.ofMesh).toArray⟩ := by
  cases delivery with
  | perSegment => rw [submit?, addAll?_eq, empty, Array.empty_append, Device.delivered]
  | merged =>
      rw [submit?, Mesh.mergeAll?_eq few valid, Option.bind_eq_bind, Option.bind_some, addAll?_eq,
        empty, Array.empty_append, Device.delivered]

end FlatList

/-- The box, from its corners, edges and faces one after the other. -/
def cuboid? {α : Type} [Scalar α] (width height depth : α) : Guarded (Failure α) (Mesh α) :=
  if isSize width && isSize height && isSize depth then do
    let (_, m) := Mesh.empty.addVertices
      (Cuboid.corners.map fun c => ⟨c.x * width, c.y * depth, c.z * height⟩)
    return m.addSides Cuboid.edges Cuboid.quads
  else throw (.misuse (.boxSize width height depth))

theorem cuboid?_eq {α : Type} [Scalar α] (width height depth : α) :
    cuboid? width height depth = sure (cuboid width height depth) := by
  unfold cuboid? cuboid
  split <;> rfl

variable {σ : Type} [WordSource σ]

/-- All points that a plan draws can be numbered. -/
def GrowthPlan.Numbered (p : GrowthPlan Float) (source : σ) : Prop :=
  ∀ segments, p.segments source = .ok segments → (segments.map Mesh.vertexCount).sum < 2 ^ 32

namespace Device

/-- Reports a failure. -/
def reported? {β : Type} (run : Guarded (Failure Float) β) : Guarded Report β :=
  ExceptT.mk (run.run.map reported)

def sweep? (text : String) : Guarded Report FlatMesh := do
  let plan ← sure (sweepPlan text)
  return .ofMesh (← reported? plan.mesh?)

def growth? (text : String) (source : σ) : Guarded Report FlatList := do
  let plan ← sure (growthPlan text)
  let segments ← reported? (plan.segments? source)
  FlatList.submit? plan.delivery segments

def expansion? (text : String) (source : σ) : Guarded Report Word := do
  let plan ← sure (growthPlan text)
  reported? (plan.expand? source)

def koch? (iterations : UInt32) (source : σ) : Guarded Report FlatMesh := do
  let plan : GrowthPlan Float := .koch iterations.toUInt64
  let segments ← reported? (plan.segments? source)
  return .ofMesh (← Mesh.mergeAll? segments)

def box? (width height depth : Float) : Guarded Report FlatMesh := do
  return .ofMesh (← reported? (cuboid? width height depth))

variable {text : String}

theorem reported?_sure {β : Type} (run : Except (Failure Float) β) :
    reported? (sure run) = sure (reported run) := rfl

theorem sweep?_eq (few : ∀ p, sweepPlan text = .ok p → p.profile.resolution.toNat < 2 ^ 31) :
    sweep? text = sure (sweep text) := by
  refine sure_bind fun p read => ?_
  rw [SweepPlan.mesh?_eq (few p read), reported?_sure]
  exact sure_bind fun _ _ => rfl

theorem growth?_eq {source : σ} (few : ∀ p, growthPlan text = .ok p →
    p.style.resolution.toNat < 2 ^ 31 ∧ p.Numbered source) :
    growth? text source = sure (growth text source) := by
  cases read : growthPlan text with
  | error unread =>
      rw [growth_of_unread read, growth?, read]
      rfl
  | ok p =>
      obtain ⟨around, numbered⟩ := few p read
      have given : growth text source = reported (p.segments source) >>= fun segments =>
          .ok ⟨((delivered p.delivery segments).map .ofMesh).toArray⟩ := by
        rw [growth_eq read]
        cases reported (p.segments source) <;> rfl
      rw [given, growth?, read, sure_ok_bind, GrowthPlan.segments?_eq around, reported?_sure]
      refine sure_bind fun segments drawn => ?_
      have carried := reported_eq_ok_iff.mp drawn
      have few := numbered segments carried
      rw [FlatList.submit?_eq few (GrowthPlan.isValid_segments carried few)]
      rfl

theorem expansion?_eq (text : String) (source : σ) :
    expansion? text source = sure (expansion text source) := by
  refine sure_bind fun p _ => ?_
  rw [GrowthPlan.expand?_eq, reported?_sure]

theorem koch?_eq {iterations : UInt32} {source : σ}
    (numbered : (GrowthPlan.koch iterations.toUInt64 : GrowthPlan Float).Numbered source) :
    koch? iterations source = sure (koch iterations source) := by
  have around : (GrowthPlan.koch iterations.toUInt64 : GrowthPlan Float).style.resolution.toNat <
      2 ^ 31 := (by decide : (UInt64.ofNat defaultBranchRingSize).toNat < 2 ^ 31)
  simp only [koch?, koch, GrowthPlan.segments?_eq around, reported?_sure]
  refine sure_bind fun segments drawn => ?_
  have carried := reported_eq_ok_iff.mp drawn
  have few := numbered segments carried
  rw [Mesh.mergeAll?_eq few (GrowthPlan.isValid_segments carried few)]
  rfl

theorem box?_eq (width height depth : Float) :
    box? width height depth = sure (box width height depth) := by
  rw [box?, cuboid?_eq, reported?_sure]
  exact sure_bind fun _ _ => rfl

/-- No step that makes no sense is ever reached, neither by a text with a plan or without one nor by
a preset. What is asked for is given, or there is a report of one of the kinds that the rings of a
sweep and the branches of a growth account for. -/
theorem never_breaks_down (text : String) (source : σ) (iterations : UInt32)
    (width height depth : Float) :
    ((∀ p, sweepPlan text = .ok p → p.profile.resolution.toNat < 2 ^ 31) →
        (sweep? text).run = some (sweep text)) ∧
      ((∀ p, growthPlan text = .ok p → p.style.resolution.toNat < 2 ^ 31 ∧ p.Numbered source) →
        (growth? text source).run = some (growth text source)) ∧
      (expansion? text source).run = some (expansion text source) ∧
      ((GrowthPlan.koch iterations.toUInt64 : GrowthPlan Float).Numbered source →
        (koch? iterations source).run = some (koch iterations source)) ∧
      (box? width height depth).run = some (box width height depth) ∧
      (∀ report, sweep text = .error report →
        report.kind ∈ ["invalid_json", "configuration", "index_mismatch", "divide_by_zero"]) ∧
      (∀ report, growth text source = .error report ∨ expansion text source = .error report ∨
          koch iterations source = .error report →
        report.kind ∈ ["invalid_json", "configuration", "divide_by_zero", "empty_stack"]) ∧
      ∀ report, box width height depth = .error report → report.kind = "configuration" := by
  refine ⟨sweep?_eq, growth?_eq, expansion?_eq text source, koch?_eq, box?_eq width height depth,
    fun _ => sweep_kind, ?_, fun _ => box_kind⟩
  rintro report (refused | refused | refused)
  · exact growth_kind refused
  · exact growth_kind (growth_of_expansion_eq_error refused)
  · exact List.mem_cons_of_mem _ (koch_kind refused)

theorem standard_never_breaks_down :
    (∃ p, sweepPlan "\x7b\x7d" = .ok p ∧ p.profile.resolution.toNat < 2 ^ 31 ∧
        ∃ f, sweep "\x7b\x7d" = .ok f ∧ (sweep? "\x7b\x7d").run = some (.ok f)) ∧
      (∃ p, growthPlan (planText "F[X]X" "merged") = .ok p ∧ p.style.resolution.toNat < 2 ^ 31 ∧
        p.Numbered (Script.ofList [7]) ∧ ∃ list,
          growth (planText "F[X]X" "merged") (Script.ofList [7]) = .ok list ∧
            (growth? (planText "F[X]X" "merged") (Script.ofList [7])).run = some (.ok list)) ∧
      (expansion? barrenText (Script.ofList [7])).run = some (.error ⟨"configuration",
        "Configuration error: production rule for 'X' needs at least one output"⟩) ∧
      ((GrowthPlan.koch (1 : UInt32).toUInt64 : GrowthPlan Float).Numbered (Script.ofList [7]) ∧
        (koch? 1 (Script.ofList [7])).run = some (koch 1 (Script.ofList [7]))) ∧
      ∃ f, box 1 2 3 = .ok f ∧ (box? 1 2 3).run = some (.ok f) := by
  -- All points are numbered where the word has few steps ahead.
  have numbered : ∀ (p : GrowthPlan Float) (w : Word), p.expand (Script.ofList [7]) = .ok w →
      w.count 'F' * (2 * p.style.resolution.toNat) < 2 ^ 32 → p.Numbered (Script.ofList [7]) := by
    intro p w grown few segments carried
    rwa [GrowthPlan.vertexCount_segments carried grown]
  refine ⟨?_, ?_, ?_, ?_, ?_⟩
  · obtain ⟨read, m, swept⟩ := standard_swept
    have few : (SweepPlan.standard : SweepPlan Float).profile.resolution.toNat < 2 ^ 31 :=
      (by decide : (UInt64.ofNat defaultRingSize).toNat < 2 ^ 31)
    have given : sweep "\x7b\x7d" = .ok (.ofMesh m) :=
      sweep_eq_ok_iff.mpr ⟨_, m, read, swept, rfl⟩
    have guarded := (never_breaks_down "\x7b\x7d" (Script.ofList [7]) 1 1 2 3).1 fun p same => by
      cases read.symm.trans same
      exact few
    exact ⟨_, read, few, _, given, guarded.trans (congrArg some given)⟩
  · have read : growthPlan (planText "F[X]X" "merged") =
        .ok { fork "F[X]X" with delivery := .merged } := by decide +kernel
    have few : (fork "F[X]X").style.resolution.toNat < 2 ^ 31 := by decide
    obtain ⟨grown, segments, carried⟩ := fork_drawn
    have counted := numbered { fork "F[X]X" with delivery := .merged } _ grown (by decide)
    have given := (growth_eq_ok_iff read (Script.ofList [7])).mpr ⟨segments, carried, rfl⟩
    have guarded := (never_breaks_down (planText "F[X]X" "merged") (Script.ofList [7]) 1 1 2 3).2.1
      fun p same => by
        cases read.symm.trans same
        exact ⟨few, counted⟩
    exact ⟨_, read, few, counted, _, given, guarded.trans (congrArg some given)⟩
  · have refused : expansion barrenText (Script.ofList [7]) = .error ⟨"configuration",
        "Configuration error: production rule for 'X' needs at least one output"⟩ := by
      decide +kernel
    have guarded := (never_breaks_down barrenText (Script.ofList [7]) 1 1 2 3).2.2.1
    exact guarded.trans (congrArg some refused)
  · have grown : (GrowthPlan.koch (1 : UInt32).toUInt64 : GrowthPlan Float).expand
        (Script.ofList [7]) = .ok
          "F^F&F&FF^F^F&F^F^F&F&FF^F^F&F^F^F&F&FF^F^F&F^F^F&F&FF^F^F&F".toList := by
      decide +kernel
    have counted := numbered _ _ grown (by decide +kernel)
    exact ⟨counted, (never_breaks_down "" (Script.ofList [7]) 1 1 2 3).2.2.2.1 counted⟩
  · obtain ⟨m, made⟩ := box_given
    have given : box 1 2 3 = .ok (.ofMesh m) := reported_bind_eq_ok_iff.mpr ⟨m, made, rfl⟩
    have guarded := (never_breaks_down "" (Script.ofList [7]) 1 1 2 3).2.2.2.2.1
    exact ⟨_, given, guarded.trans (congrArg some given)⟩

end Device

end Tendril
