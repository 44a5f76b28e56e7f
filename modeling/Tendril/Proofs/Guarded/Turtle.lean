import Tendril.Proofs.Guarded.Grammar
import Tendril.Proofs.Guarded.Mesh
import Tendril.Proofs.Plan.Delivery

/-!
# Guarded drawings

A tube names its points by twice a step and the three numbers that follow, the last two of which
start over behind the last point. All of them are words as long as the points of a ring are fewer
than half of the words; the style that draws a tube is the one that the plan asks for.
-/

namespace Tendril

open Guarded

variable {α : Type}

namespace Mesh

/-- Adds the rung at step `i` around a tube, the sides that lead on from it, and the face between it
and the next rung. -/
def tubeSide? (ringSize : Index) (m : Mesh α) (i : Nat) : Option (Mesh α) := do
  let bottom ← index? (2 * i)
  let top ← index? (bottom.toNat + 1)
  let nextBottom : Index := .ofNat (← remainder? (← index? (bottom.toNat + 2)).toNat ringSize.toNat)
  let nextTop : Index := .ofNat (← remainder? (← index? (bottom.toNat + 3)).toNat ringSize.toNat)
  let m := m.addEdge ⟨bottom, top⟩
  let m := m.addEdge ⟨bottom, nextBottom⟩
  let m := m.addEdge ⟨top, nextTop⟩
  return m.addQuad ⟨bottom, nextBottom, nextTop, top⟩

theorem tubeSide?_eq {size i : Nat} (inside : i < size) (few : size < 2 ^ 31) (m : Mesh α) :
    tubeSide? (.ofNat (2 * size)) m i = some (m.addSides (tubeEdges size i) [tubeQuad size i]) := by
  have fits : ∀ n < 2 ^ 32, (UInt32.ofNat n).toNat = n := fun _ => toNat_ofNat_of_fits
  rw [tubeSide?, index?_of_lt (by omega)]
  simp only [Option.bind_eq_bind, Option.bind_some]
  rw [fits (2 * i) (by omega), fits (2 * size) (by omega), index?_of_lt (by omega),
    index?_of_lt (by omega), index?_of_lt (by omega)]
  simp only [Option.bind_some]
  rw [fits (2 * i + 2) (by omega), fits (2 * i + 3) (by omega), remainder?_of_pos (by omega),
    remainder?_of_pos (by omega)]
  simp only [Option.bind_some, addEdge_eq, addQuad_eq, addSides_addSides]
  rfl

end Mesh

variable [Scalar α]

section Tube

variable (start finish normal binormal : Vec3 α) (style : TubeStyle α)

/-- The points of a tube, and then what is between them. -/
def tubeMesh? : Option (Mesh α) := do
  -- Room for the points and the edges is asked for ahead of them.
  let _ ← size? (2 * style.resolution.toNat)
  let _ ← size? (3 * style.resolution.toNat)
  let (_, m) := Mesh.empty.addVertices <| (List.range style.resolution.toNat).flatMap fun i =>
    let offset := style.offset normal binormal i
    [finish + offset, start + offset]
  -- From here on the resolution is the lower half of its word.
  let resolution := style.resolution.toUInt32
  let ringSize ← index? (2 * resolution.toNat)
  (List.range resolution.toNat).foldlM (Mesh.tubeSide? ringSize) m

/-- The tube from `start` to `finish` in a drawable style. -/
def tube? : Guarded (Failure α) (Mesh α) :=
  match style.fault? with
  | some cause => throw (.misuse cause)
  | none => tubeMesh? start finish normal binormal style

theorem tube?_eq (few : style.resolution.toNat < 2 ^ 31) :
    tube? start finish normal binormal style = sure (tube start finish normal binormal style) := by
  have narrow : style.resolution.toUInt32.toNat = style.resolution.toNat := by
    rw [UInt64.toNat_toUInt32]
    exact Nat.mod_eq_of_lt (by omega)
  unfold tube? tube
  cases style.fault? with
  | some cause => rfl
  | none =>
      simp only [tubeMesh?, narrow, size?_of_lt (show 2 * style.resolution.toNat < 2 ^ 64 by omega),
        size?_of_lt (show 3 * style.resolution.toNat < 2 ^ 64 by omega),
        index?_of_lt (show 2 * style.resolution.toNat < 2 ^ 32 by omega), Option.bind_eq_bind,
        Option.bind_some, Mesh.addVertices_eq]
      rw [foldlM_eq_some fun i member m => Mesh.tubeSide?_eq (List.mem_range.mp member) few m,
        Mesh.foldl_addSides, ← List.map_eq_flatMap]
      refine congrArg (fun m => sure (.ok m)) ?_
      simp [Mesh.addSides, Mesh.empty]

end Tube

/-! ## Drawing -/

namespace Turtle

def forward? (t : Turtle α) : Guarded (Failure α) (Mesh α × Turtle α) := do
  let segment ← tube? t.frame.location t.ahead t.frame.normal t.frame.binormal t.style
  return (segment, { t with frame := { t.frame with location := t.ahead } })

def execute? (t : Turtle α) (command : Command) :
    Guarded (Failure α) (Option (Mesh α) × Turtle α) :=
  match command with
  | .forward => do
      let (segment, t) ← t.forward?
      return (some segment, t)
  | other => sure (t.execute other)

/-- Carries out commands in order, after the given segments are drawn. -/
def draw? (t : Turtle α) (segments : Array (Mesh α)) :
    List Command → Guarded (Failure α) (List (Mesh α))
  | [] => return segments.toList
  | command :: rest => do
      let (segment, t) ← t.execute? command
      t.draw? (segments.appendList segment.toList) rest

theorem execute?_eq {t : Turtle α} (few : t.style.resolution.toNat < 2 ^ 31) (command : Command) :
    t.execute? command = sure (t.execute command) := by
  cases command with
  | forward =>
      unfold execute? forward? execute forward
      rw [tube?_eq _ _ _ _ _ few]
      cases tube t.frame.location t.ahead t.frame.normal t.frame.binormal t.style <;> rfl
  | _ => rfl

/-- Drawing makes sense from any point of a word on. The style of the turtle never changes. -/
theorem draw?_after {d : Drawing α} (going : d.failure = none)
    (few : d.turtle.style.resolution.toNat < 2 ^ 31) (w : Word) :
    d.turtle.draw? d.segments (w.filterMap Command.ofSymbol?) = sure (d.after w).result := by
  induction w generalizing d with
  | nil => rw [Drawing.after_nil, Drawing.result, going]; rfl
  | cons symbol w ih =>
      have stepped := d.step_spec symbol
      rw [Drawing.after_cons]
      generalize d.step symbol = next at stepped ⊢
      cases stepped with
      | halted failed =>
          rw [failed] at going
          cases going
      | ignored going unknown =>
          rw [List.filterMap_cons_none unknown]
          exact ih going few
      | @done command segment turtle going known effect =>
          rw [List.filterMap_cons_some known, draw?, execute?_eq few,
            execute_eq_ok_iff.mpr effect]
          have styled : turtle.style.resolution.toNat < 2 ^ 31 := by rwa [effect.settings.2.2]
          exact ih (d := ⟨turtle, d.segments.appendList segment.toList, d.failure⟩) going styled
      | stopped going known fault =>
          rw [List.filterMap_cons_some known, draw?, execute?_eq few,
            execute_eq_error_iff.mpr fault, Drawing.after_failed rfl]
          rfl

end Turtle

namespace GrowthPlan

variable {σ : Type} [WordSource σ]

def segments? (p : GrowthPlan α) (source : σ) : Guarded (Failure α) (List (Mesh α)) := do
  let w ← p.expand? source
  let t ← sure p.turtle
  t.draw? #[] (w.filterMap Command.ofSymbol?)

/-- No plan breaks down before its segments are drawn. -/
theorem segments?_eq {p : GrowthPlan α} (few : p.style.resolution.toNat < 2 ^ 31) (source : σ) :
    p.segments? source = sure (p.segments source) := by
  unfold segments? segments
  rw [expand?_eq]
  refine sure_bind fun w _ => sure_bind fun t made => ?_
  have styled : t.style.resolution.toNat < 2 ^ 31 := by
    obtain ⟨_, _, rfl⟩ := Turtle.ofSettings_eq_ok made
    exact few
  exact Turtle.draw?_after (d := .start t) rfl styled w

end GrowthPlan

end Tendril
