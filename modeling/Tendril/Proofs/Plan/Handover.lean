import Tendril.Proofs.Host.Calls
import Tendril.Proofs.Plan.Output

/-!
# Handing plans over

A plan is carried out before the first of its meshes is handed over. A sink of whatever kind is
therefore asked for nothing when a plan fails, and otherwise for the meshes that the plan says, in
order and up to the first that it refuses. A host that refuses nothing is left as it was by every
plan that fails.
-/

namespace Tendril

variable {α ρ τ η : Type} [Scalar α]

namespace SweepPlan

/-- The calls that the mesh of a plan is handed over with, and the answer. -/
inductive Handover (p : SweepPlan α) : List (Sink.Call α τ η) → Except (Failure α) η → Prop
  | failed {failure : Failure α} (refused : p.mesh = .error failure) :
      Handover p [] (.error failure)
  | made {call : Sink.Call α τ η} (swept : p.mesh = .ok call.mesh) : Handover p [call] call.answer

theorem submit_makes (p : SweepPlan α) (sink : Sink α τ η) (s : τ) :
    ∃ calls answer last, sink.Makes (fun _ k => p.submit k) s calls answer last ∧
      p.Handover calls answer := by
  unfold submit
  cases swept : p.mesh with
  | error failure => exact ⟨[], .error failure, s, .idle _, .failed swept⟩
  | ok m => exact ⟨_, _, _, .create rfl, .made swept⟩

end SweepPlan

namespace GrowthPlan

variable [WordSource ρ]

/-- The calls that the segments of a plan are handed over with, and the answer. -/
inductive Handover (p : GrowthPlan α) (source : ρ) :
    List (Sink.Call α τ η) → Except (Failure α) (List η) → Prop
  | failed {failure : Failure α} (refused : p.segments source = .error failure) :
      Handover p source [] (.error failure)
  | merged {segments : List (Mesh α)} {call : Sink.Call α τ η}
      (carried : p.segments source = .ok segments) (asked : p.delivery = .merged)
      (whole : call.mesh = .mergeAll segments) :
      Handover p source [call] (call.answer.map fun handle => [handle])
  | perSegment {segments : List (Mesh α)} {calls : List (Sink.Call α τ η)}
      {answer : Except (Failure α) (List η)} (carried : p.segments source = .ok segments)
      (asked : p.delivery = .perSegment) (inTurn : Sink.InTurn segments calls answer) :
      Handover p source calls answer

theorem submit_makes (p : GrowthPlan α) (source : ρ) (sink : Sink α τ η) (s : τ) :
    ∃ calls answer last, sink.Makes (fun _ k => p.submit source k) s calls answer last ∧
      p.Handover source calls answer := by
  unfold submit
  cases carried : p.segments source with
  | error failure => exact ⟨[], .error failure, s, .idle _, .failed carried⟩
  | ok segments =>
      cases asked : p.delivery with
      | perSegment =>
          obtain ⟨calls, answer, last, made, inTurn⟩ := sink.createAll_makes segments s
          exact ⟨calls, answer, last, made, .perSegment carried asked inTurn⟩
      | merged =>
          have once := (Sink.Makes.create
            (rfl : sink.create (.mergeAll segments) s = (_, _))).map fun answer =>
              answer.map fun handle => [handle]
          rw [← Sink.createAll_singleton] at once
          exact ⟨_, _, _, once, .merged carried asked rfl⟩

end GrowthPlan

/-! ## Hosts that refuse nothing -/

theorem SweepPlan.submit_restores {sink : Sink α τ η} (accepts : sink.Accepts) {p : SweepPlan α}
    {s : τ} {failure : Failure α} (failed : (p.submit sink s).1 = .error failure) :
    (p.submit sink s).2 = s := by
  obtain ⟨calls, answer, last, made, handover⟩ := p.submit_makes sink s
  have accepted := made.trail.accepted accepts
  rw [made.plain] at failed
  cases handover with
  | failed refused => rw [made.restores]
  | made swept =>
      obtain ⟨handle, taken⟩ := accepted _ List.mem_cons_self
      rw [taken] at failed
      cases failed

theorem GrowthPlan.submit_restores [WordSource ρ] {sink : Sink α τ η} (accepts : sink.Accepts)
    {p : GrowthPlan α} {source : ρ} {s : τ} {failure : Failure α}
    (failed : (p.submit source sink s).1 = .error failure) : (p.submit source sink s).2 = s := by
  obtain ⟨calls, answer, last, made, handover⟩ := p.submit_makes source sink s
  have accepted := made.trail.accepted accepts
  rw [made.plain] at failed
  cases handover with
  | failed refused => rw [made.restores]
  | merged _ _ _ =>
      obtain ⟨handle, taken⟩ := accepted _ List.mem_cons_self
      rw [taken] at failed
      cases failed
  | perSegment _ _ inTurn =>
      cases failed
      obtain ⟨call, member, refused⟩ := inTurn.refused_mem
      obtain ⟨handle, taken⟩ := accepted call member
      rw [taken] at refused
      cases refused

namespace Sink

variable [WordSource ρ]

/-- Whatever a sink does, it is asked for nothing by a plan that fails, for one mesh by a sweep and
by a growth that is delivered in one, and otherwise for the segments in order, up to and including
the first that it refuses. Scenes and flat lists are left as they were by a plan that fails. -/
theorem plan_handover (sink : Sink Float τ η) (s : τ) (sweep : SweepPlan Float)
    (growth : GrowthPlan Float) (source : ρ) :
    (∃ calls answer last, sink.Makes (fun _ k => sweep.submit k) s calls answer last ∧
        sweep.Handover calls answer) ∧
      (∃ calls answer last, sink.Makes (fun _ k => growth.submit source k) s calls answer last ∧
        growth.Handover source calls answer) ∧
      (∀ (scene : Scene Float) (failure : Failure Float),
        ((sweep.submit Scene.sink scene).1 = .error failure →
            (sweep.submit Scene.sink scene).2 = scene) ∧
          ((growth.submit source Scene.sink scene).1 = .error failure →
            (growth.submit source Scene.sink scene).2 = scene)) ∧
      ∀ (list : FlatList) (failure : Failure Float),
        ((sweep.submit FlatList.sink list).1 = .error failure →
            (sweep.submit FlatList.sink list).2 = list) ∧
          ((growth.submit source FlatList.sink list).1 = .error failure →
            (growth.submit source FlatList.sink list).2 = list) :=
  ⟨sweep.submit_makes sink s, growth.submit_makes source sink s,
    fun _ _ => ⟨SweepPlan.submit_restores Scene.sink_accepts,
      GrowthPlan.submit_restores Scene.sink_accepts⟩,
    fun _ _ => ⟨SweepPlan.submit_restores FlatList.sink_accepts,
      GrowthPlan.submit_restores FlatList.sink_accepts⟩⟩

/-- A sink with room for so many meshes. -/
def crate (room : Nat) : Sink Float Nat Nat where
  create _ n :=
    if n < room then (.ok n, n + 1) else (.error (.misuse (.stated "there is no room")), n)

theorem crate_plan_handover :
    (∃ calls, (crate 2).Makes
        (fun _ k => { Device.fork "F[X]X" with delivery := .perSegment }.submit
          (Script.ofList [7]) k) 0 calls (.error (.misuse (.stated "there is no room"))) 2 ∧
        calls.length = 3) ∧
      ∀ list, (GrowthPlan.dangling.submit (Script.ofList [7]) FlatList.sink list).2 = list := by
  obtain ⟨grown, segments, carried⟩ := Device.fork_drawn
  constructor
  · obtain ⟨w, derived, count, _⟩ := GrowthPlan.segments_eq_ok carried
    cases grown.symm.trans derived
    obtain ⟨calls, answer, last, made, _⟩ := (plan_handover (crate 2) 0 SweepPlan.standard
      { Device.fork "F[X]X" with delivery := .perSegment } (Script.ofList [7])).2.1
    have split : ({ Device.fork "F[X]X" with delivery := .perSegment } :
        GrowthPlan Float).segments (Script.ofList [7]) = .ok segments := carried
    have plain := made.plain
    have logged := made.logged []
    simp only [GrowthPlan.submit, split] at plain logged
    -- There are five segments, and the crate is full when it has two of them.
    match segments, count with
    | [a, b, c, d, e], _ =>
        cases plain
        cases logged
        exact ⟨_, made, rfl⟩
  · intro list
    have stuck : (GrowthPlan.dangling.submit (Script.ofList [7]) FlatList.sink list).1 =
        .error .emptyStack := by
      rw [← failure?_eq_some_iff, GrowthPlan.failure?_submit FlatList.sink_accepts]
      decide +kernel
    exact ((plan_handover (crate 2) 0 SweepPlan.standard GrowthPlan.dangling
      (Script.ofList [7])).2.2.2 list _).2 stuck

end Sink

end Tendril
