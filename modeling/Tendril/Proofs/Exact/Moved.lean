import Tendril.Proofs.Exact.Rings
import Tendril.Proofs.Exact.Tube
import Tendril.Proofs.Mesh.Construction
import Tendril.Proofs.Plan.Delivery
import Tendril.Proofs.Turtle.Heading

/-!
# Drawing elsewhere

No step of a sweep or of a drawing looks at where it is: places are only ever added to. So whatever
is made at a place that is moved comes out as before and moved, ring by ring and symbol by symbol,
and what fails fails as before. A turtle has a place in its frame and one in every frame that it has
saved, and all of them move.
-/

namespace Tendril

open Scalar

theorem Vec3.add_right_comm (a b c : Vec3 ℝ) : a + b + c = a + c + b := by
  ext <;> simp only [add_x, add_y, add_z] <;> ring

section Stages

variable {ε β γ β' γ' : Type} {next : β → Except ε γ}

/-- What is done to the outcome of a run is done to that of its last stage. -/
theorem map_bind_eq_bind (change : γ → γ') (first : Except ε β) :
    (first >>= next).map change = first >>= fun b => (next b).map change := by
  cases first <;> rfl

/-- A second stage may go along with a change to what the first one comes to. -/
theorem map_bind_eq_map {change : β → β'} {change' : γ → γ'} {next' : β' → Except ε γ'}
    (along : ∀ b, next' (change b) = (next b).map change') (first : Except ε β) :
    first.map change >>= next' = (first >>= next).map change' := by
  cases first with
  | error failure => rfl
  | ok b => exact along b

end Stages

/-! ## Meshes -/

namespace Mesh

theorem empty_move (v : Vec3 ℝ) : (empty : Mesh ℝ).move v = empty := by
  rw [move, empty, Array.map_empty]

theorem isEmpty_move (m : Mesh ℝ) (v : Vec3 ℝ) : (m.move v).isEmpty = m.isEmpty := by
  rw [Bool.eq_iff_iff, isEmpty, isEmpty, Array.isEmpty_iff_size_eq_zero,
    Array.isEmpty_iff_size_eq_zero, move, Array.size_map]

theorem merge_move (m other : Mesh ℝ) (v : Vec3 ℝ) :
    (m.move v).merge (other.move v) = (m.merge other).move v := by
  have next : (m.move v).nextIndex = m.nextIndex := by
    rw [nextIndex, vertexCount_move, nextIndex]
  unfold merge
  rw [next]
  exact congrArg (Mesh.mk · _ _) Array.map_append.symm

/-- Meshes that are moved join to the mesh that is moved. -/
theorem mergeAll_move (parts : List (Mesh ℝ)) (v : Vec3 ℝ) :
    mergeAll (parts.map (·.move v)) = (mergeAll parts).move v := by
  -- Joining starts with no points, and these stay none when they are moved.
  have joined : ∀ m : Mesh ℝ,
      (parts.map (·.move v)).foldl merge (m.move v) = (parts.foldl merge m).move v := by
    induction parts with
    | nil => exact fun m => rfl
    | cons part parts ih =>
        intro m
        rw [List.map_cons, List.foldl_cons, merge_move]
        exact ih (m.merge part)
  rw [mergeAll, ← empty_move v]
  exact joined .empty

theorem addRing_move (m : Mesh ℝ) (ring : List (Vec3 ℝ)) (v : Vec3 ℝ) :
    (m.move v).addRing (ring.map (· + v)) = (m.addRing ring).move v := by
  unfold addRing
  rw [vertexCount_move, isEmpty_move, List.length_map]
  refine congrArg (Mesh.mk · _ _) ?_
  apply Array.toList_inj.mp
  simp only [move, Array.appendList_eq_append, Array.toList_appendList, Array.toList_map,
    List.map_append]

end Mesh

/-! ## Sweeps -/

namespace CoilAxis

/-- The axis at another place. -/
def move {α : Type} [Scalar α] (axis : CoilAxis α) (v : Vec3 α) : CoilAxis α :=
  { axis with start := axis.start + v }

theorem make_move (start tangent normal : Vec3 ℝ) (s : Section ℝ) (maxIterations : Nat)
    (v : Vec3 ℝ) : make (start + v) tangent normal s maxIterations =
      (make start tangent normal s maxIterations).map (·.move v) := by
  unfold make
  split
  · rfl
  · simp only [map_bind_eq_bind]
    rfl

theorem ringAt_move (axis : CoilAxis ℝ) (n : Nat) (v : Vec3 ℝ) :
    (axis.move v).ringAt n = (axis.ringAt n).map (· + v) := by
  unfold ringAt
  rw [List.map_map]
  apply List.map_congr_left
  intro point _
  show axis.start + v + _ + _ + _ + _ = axis.start + _ + _ + _ + _ + v
  iterate 4 rw [Vec3.add_right_comm _ v]
  rfl

theorem sweepRings_move (left : Nat) (previous : Option Nat) (m : Mesh ℝ) (axis : CoilAxis ℝ)
    (v : Vec3 ℝ) : (sweepRings left previous (m.move v) (axis.move v)).1 =
      (sweepRings left previous m axis).1.map (·.move v) := by
  -- The mesh so far and the axis move together, from ring to ring.
  induction left generalizing previous m axis with
  | zero => rfl
  | succ left ih =>
      have next : (axis.move v).advance = axis.advance.move v := rfl
      have same : (axis.advance.move v).iteration = axis.advance.iteration := rfl
      simp only [sweepRings, next, same, ringAt_move, List.length_map]
      cases ringFault? previous (axis.advance.ringAt axis.advance.iteration).length
          axis.advance.iteration with
      | some failure => rfl
      | none =>
          rw [Mesh.addRing_move]
          exact ih _ _ _

theorem sweep_move (axis : CoilAxis ℝ) (v : Vec3 ℝ) :
    (axis.move v).sweep.1 = axis.sweep.1.map (·.move v) := by
  have moved := sweepRings_move (axis.maxIterations - 1 - axis.iteration) none .empty axis v
  rw [Mesh.empty_move] at moved
  exact moved

end CoilAxis

namespace SweepPlan

/-- The plan for another place. -/
def move {α : Type} [Scalar α] (p : SweepPlan α) (v : Vec3 α) : SweepPlan α :=
  { p with start := p.start + v }

theorem axis_move (p : SweepPlan ℝ) (v : Vec3 ℝ) :
    (p.move v).axis = p.axis.map (·.move v) := by
  unfold axis
  rw [map_bind_eq_bind]
  congr 1
  funext s
  show CoilAxis.make (p.start + v) p.tangent p.normal s p.maxIterations.toNat >>= _ = _
  rw [CoilAxis.make_move]
  apply map_bind_eq_map
  intro axis
  rfl

theorem mesh_move (p : SweepPlan ℝ) (v : Vec3 ℝ) :
    (p.move v).mesh = p.mesh.map (·.move v) := by
  unfold mesh
  rw [axis_move]
  exact map_bind_eq_map (fun axis => axis.sweep_move v) _

end SweepPlan

/-! ## Drawings -/

/-- The frame at another place. -/
def Frame.move {α : Type} [Scalar α] (f : Frame α) (v : Vec3 α) : Frame α :=
  { f with location := f.location + v }

theorem Frame.turn_move (f : Frame ℝ) (axis : Axis) (angle : ℝ) (v : Vec3 ℝ) :
    (f.move v).turn axis angle = (f.turn axis angle).map (·.move v) := by
  rw [move, turn_moved]
  cases turned : f.turn axis angle with
  | error failure => rfl
  | ok g =>
      show Except.ok { g with location := f.location + v } = .ok (g.move v)
      rw [move, turn_location turned]

theorem Frame.make_move (location tangent normal v : Vec3 ℝ) :
    make (location + v) tangent normal = (make location tangent normal).map (·.move v) := by
  simp only [make, map_bind_eq_bind]
  rfl

theorem tube_move (start finish normal binormal : Vec3 ℝ) (style : TubeStyle ℝ) (v : Vec3 ℝ) :
    tube (start + v) (finish + v) normal binormal style =
      (tube start finish normal binormal style).map (·.move v) := by
  unfold tube
  cases style.fault? with
  | some cause => rfl
  | none =>
      refine congrArg (fun vertices => Except.ok (Mesh.mk vertices _ _)) ?_
      rw [List.map_toArray, List.map_flatMap]
      congr 1
      apply List.flatMap_congr
      intro i _
      show [finish + v + _, start + v + _] = [finish + _ + v, start + _ + v]
      rw [Vec3.add_right_comm, Vec3.add_right_comm start]

namespace Turtle

variable {t next : Turtle ℝ} {command : Command}

/-- The turtle at another place, to which what it has saved comes along. -/
def move {α : Type} [Scalar α] (t : Turtle α) (v : Vec3 α) : Turtle α :=
  { t with frame := t.frame.move v, saved := t.saved.map (·.move v) }

theorem ahead_move (t : Turtle ℝ) (v : Vec3 ℝ) : (t.move v).ahead = t.ahead + v :=
  Vec3.add_right_comm _ _ _

theorem angle_move (t : Turtle ℝ) (v : Vec3 ℝ) (sense : Sense) :
    (t.move v).angle sense = t.angle sense := by
  cases sense <;> rfl

theorem Effect.move {segment : Option (Mesh ℝ)} (effect : t.Effect command segment next)
    (v : Vec3 ℝ) : (t.move v).Effect command (segment.map (·.move v)) (next.move v) := by
  cases effect with
  | push => exact .push
  | @pop frame saved top =>
      have topToo : (t.move v).saved = frame.move v :: saved.map (·.move v) := by
        rw [Turtle.move, top, List.map_cons]
      exact .pop topToo
  | @turn axis sense frame turned =>
      have turnedToo : (t.move v).frame.turn axis ((t.move v).angle sense) = .ok (frame.move v) := by
        rw [angle_move, Turtle.move, Frame.turn_move, turned]
        rfl
      exact .turn turnedToo
  | @forward m drawn =>
      have drawnToo : tube (t.move v).frame.location (t.move v).ahead (t.move v).frame.normal
          (t.move v).frame.binormal (t.move v).style = .ok (m.move v) := by
        rw [ahead_move]
        have same := tube_move t.frame.location t.ahead t.frame.normal t.frame.binormal t.style v
        rw [drawn] at same
        exact same
      have step := Effect.forward drawnToo
      rw [ahead_move] at step
      exact step

theorem Fault.move {failure : Failure ℝ} (fault : t.Fault command failure) (v : Vec3 ℝ) :
    (t.move v).Fault command failure := by
  cases fault with
  | pop empty => exact .pop (List.map_eq_nil_iff.mpr empty)
  | @turn axis sense degenerate =>
      refine .turn ?_
      rw [angle_move, Turtle.move, Frame.turn_move, degenerate]
      rfl
  | forward undrawable => exact .forward undrawable

end Turtle

namespace Drawing

/-- The drawing at another place. -/
def move {α : Type} [Scalar α] (d : Drawing α) (v : Vec3 α) : Drawing α :=
  { d with turtle := d.turtle.move v, segments := d.segments.map (·.move v) }

theorem Step.move {d next : Drawing ℝ} {symbol : Char} (stepped : d.Step symbol next)
    (v : Vec3 ℝ) : (d.move v).Step symbol (next.move v) := by
  cases stepped with
  | halted failed => exact .halted failed
  | ignored going unknown => exact .ignored going unknown
  | @done command segment turtle going known effect =>
      have step : (d.move v).Step symbol { d with
          turtle := turtle.move v
          segments := (d.segments.map (·.move v)).appendList
            (segment.map (·.move v)).toList } := .done going known (effect.move v)
      have added : (d.segments.appendList segment.toList).map (·.move v) =
          (d.segments.map (·.move v)).appendList (segment.map (·.move v)).toList := by
        apply Array.toList_inj.mp
        cases segment <;> simp
      rw [← added] at step
      exact step
  | stopped going known fault => exact .stopped going known (fault.move v)

theorem after_move (d : Drawing ℝ) (w : Word) (v : Vec3 ℝ) :
    (d.move v).after w = (d.after w).move v := by
  induction w generalizing d with
  | nil => rfl
  | cons symbol w ih =>
      rw [after_cons, after_cons, ((d.step_spec symbol).move v).step_eq]
      exact ih (d.step symbol)

theorem result_move (d : Drawing ℝ) (v : Vec3 ℝ) :
    (d.move v).result = d.result.map (List.map (·.move v)) := by
  cases failed : d.failure with
  | some failure =>
      have failedToo : (d.move v).failure = some failure := failed
      rw [result_eq_error_iff.mpr failed, result_eq_error_iff.mpr failedToo]
      rfl
  | none =>
      have through : (d.move v).failure = none := failed
      rw [result_eq_ok_iff.mpr ⟨failed, rfl⟩, result_eq_ok_iff.mpr ⟨through, rfl⟩]
      exact congrArg Except.ok Array.toList_map

end Drawing

namespace Turtle

theorem draw_move (t : Turtle ℝ) (w : Word) (v : Vec3 ℝ) :
    (t.move v).draw w = (t.draw w).move v := by
  have start : Drawing.start (t.move v) = (Drawing.start t).move v := by
    rw [Drawing.move, Drawing.start, Drawing.start, Array.map_empty]
  rw [draw_eq_after, start, Drawing.after_move]
  rfl

theorem make_move (location tangent normal v : Vec3 ℝ) :
    make (location + v) tangent normal = (make location tangent normal).map (·.move v) := by
  unfold make
  rw [Frame.make_move]
  apply map_bind_eq_map
  intro frame
  rfl

theorem withTurnAngle_move (t : Turtle ℝ) (turnAngle : ℝ) (v : Vec3 ℝ) :
    (t.move v).withTurnAngle turnAngle = (t.withTurnAngle turnAngle).map (·.move v) := by
  unfold withTurnAngle
  split <;> rfl

theorem withBranchLength_move (t : Turtle ℝ) (branchLength : ℝ) (v : Vec3 ℝ) :
    (t.move v).withBranchLength branchLength = (t.withBranchLength branchLength).map (·.move v) := by
  unfold withBranchLength
  split <;> rfl

theorem withStyle_move (t : Turtle ℝ) (style : TubeStyle ℝ) (v : Vec3 ℝ) :
    (t.move v).withStyle style = (t.withStyle style).map (·.move v) := by
  unfold withStyle
  split <;> rfl

theorem ofSettings_move (location tangent normal : Vec3 ℝ) (settings : Settings ℝ) (v : Vec3 ℝ) :
    ofSettings (location + v) tangent normal settings =
      (ofSettings location tangent normal settings).map (·.move v) := by
  unfold ofSettings
  cases settings.fault? with
  | some fault => rfl
  | none =>
      show make (location + v) tangent normal >>= _ = (make location tangent normal >>= _).map _
      rw [make_move]
      apply map_bind_eq_map
      intro t
      rw [withTurnAngle_move]
      apply map_bind_eq_map
      intro t
      rw [withBranchLength_move]
      exact map_bind_eq_map (fun t => t.withStyle_move _ v) _

end Turtle

namespace GrowthPlan

/-- The plan for another place. -/
def move {α : Type} [Scalar α] (p : GrowthPlan α) (v : Vec3 α) : GrowthPlan α :=
  { p with origin := p.origin + v }

variable {σ : Type} [WordSource σ]

theorem segments_move (p : GrowthPlan ℝ) (source : σ) (v : Vec3 ℝ) :
    (p.move v).segments source = (p.segments source).map (List.map (·.move v)) := by
  have turtle : (p.move v).turtle = p.turtle.map (·.move v) :=
    Turtle.ofSettings_move p.origin p.tangent p.normal p.settings v
  unfold segments
  rw [turtle, map_bind_eq_bind]
  -- The word is grown before there is a turtle, and no place has a part in it.
  show p.expand source >>= _ = _
  congr 1
  funext w
  apply map_bind_eq_map
  intro t
  rw [Turtle.draw_move, Drawing.result_move]

end GrowthPlan

/-- Sweeps and drawings know no place: when the place from which one starts is moved, it fails as
before, or comes to what it came to before with all points moved along and all edges and quads as
they were. This holds of every plan from the same source of chance, and from any other if the plan
is settled; of whatever a turtle draws, with all that it has saved; and of the joined mesh. -/
theorem output_move (v : Vec3 ℝ) :
    (∀ p : SweepPlan ℝ, (p.move v).mesh = p.mesh.map (·.move v)) ∧
      (∀ (p : GrowthPlan ℝ) (σ ρ : Type) [WordSource σ] [WordSource ρ] (s₁ : σ) (s₂ : ρ),
        (p.move v).segments s₁ = (p.segments s₁).map (List.map (·.move v)) ∧
          (p.Settled → (p.move v).segments s₁ = (p.segments s₂).map (List.map (·.move v)))) ∧
      (∀ (t : Turtle ℝ) (w : Word), (t.move v).draw w = (t.draw w).move v) ∧
      ∀ parts : List (Mesh ℝ),
        Mesh.mergeAll (parts.map (·.move v)) = (Mesh.mergeAll parts).move v := by
  refine ⟨fun p => p.mesh_move v, ?_, fun t w => t.draw_move w v,
    fun parts => Mesh.mergeAll_move parts v⟩
  intro p σ ρ _ _ s₁ s₂
  refine ⟨p.segments_move s₁ v, ?_⟩
  intro settled
  rw [p.segments_move s₁ v, settled.segments s₁ s₂]

/-- A branch to the side, from a rule without a choice. -/
noncomputable def bough : GrowthPlan ℝ :=
  { (GrowthPlan.standard : GrowthPlan ℝ) with
    seedWord := "XF".toList
    rules := [.simple 'X' "F[+F]".toList]
    turnAngle := 1 }

theorem bough_segments (source : Script) : ∃ meshes, bough.segments source = .ok meshes := by
  have grown : bough.expand source = .ok "F[+F]F".toList := rfl
  have inRange : bough.settingFault? = none := by
    have long : isSize bough.branchLength = true := isSize_one
    have finite : isFinite bough.turnAngle = true := rfl
    have drawable : bough.style.fault? = none := Turtle.fault?_standard
    obtain ⟨thick, fine⟩ := TubeStyle.fault?_eq_none_iff.mp drawable
    simp [GrowthPlan.settingFault?, long, finite, thick, fine]
  obtain ⟨t, made⟩ : ∃ t, bough.turtle = .ok t := by
    have ahead : (.unitZ : Vec3 ℝ) ≠ .origin := by simp [Vec3.unitZ, Vec3.origin]
    have up : (.unitX : Vec3 ℝ) ≠ .origin := by simp [Vec3.unitX, Vec3.origin]
    have square : (.unitZ : Vec3 ℝ).dot .unitX = 0 := by simp [Vec3.dot, Vec3.unitZ, Vec3.unitX]
    obtain ⟨f, framed, _⟩ := Frame.make_of_square ahead up square .origin
    have directed : Frame.directionFault? bough.tangent bough.normal = none := by
      rw [← Frame.failure?_make .origin]
      exact failure?_eq_none_iff.mpr ⟨f, framed⟩
    rw [← failure?_eq_none_iff, GrowthPlan.failure?_turtle, inRange, directed]
    rfl
  have built : Turtle.Built _ _ _ t := .ofSettings made
  have through : (t.draw "F[+F]F".toList).failure = none := by
    refine built.reachable.through ?_
    rw [Turtle.depth, built.fresh.1, ← depthAfter?_eq_none_iff]
    decide
  refine ⟨(t.draw "F[+F]F".toList).segments.toList, ?_⟩
  rw [GrowthPlan.segments, grown, made]
  exact Drawing.result_eq_ok_iff.mpr ⟨through, rfl⟩

theorem bough_output_move :
    (∃ m, CoilAxis.wire.mesh = .ok m ∧
        (CoilAxis.wire.move ⟨1, 2, 3⟩).mesh = .ok (m.move ⟨1, 2, 3⟩)) ∧
      bough.Settled ∧ ∃ meshes, bough.segments (Script.ofList []) = .ok meshes ∧
        (bough.move ⟨1, 2, 3⟩).segments (Script.ofList [7]) =
          .ok (meshes.map (·.move ⟨1, 2, 3⟩)) := by
  obtain ⟨sweeps, growths, _, _⟩ := output_move ⟨1, 2, 3⟩
  obtain ⟨axis, coiled, _⟩ := CoilAxis.wire_axis
  have swept := SweepPlan.sweep_eq_ok_of_axis coiled
  have meshed : CoilAxis.wire.mesh = axis.sweep.1 := by
    rw [SweepPlan.mesh, coiled]
    rfl
  rw [swept] at meshed
  have settled : bough.Settled := .inr (by simp [bough, RuleDraft.simple])
  obtain ⟨meshes, carried⟩ := bough_segments (Script.ofList [])
  have moved := (growths bough Script Script (Script.ofList [7]) (Script.ofList [])).2 settled
  have coil := sweeps CoilAxis.wire
  rw [carried] at moved
  rw [meshed] at coil
  exact ⟨⟨_, meshed, coil⟩, settled, meshes, carried, moved⟩

end Tendril
