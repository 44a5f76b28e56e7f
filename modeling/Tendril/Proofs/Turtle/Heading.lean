import Mathlib.Data.List.Forall2
import Tendril.Proofs.Turtle.Fault
import Tendril.Proofs.Turtle.Pieces
import Tendril.Proofs.Turtle.Segments

/-!
# What the heading depends on

Two turtles that look the same ways, in the frames that they have and in those that they have saved,
go on to do so on every word: where they are, how far they go and what they draw has no part in how
they turn or in whether they fail. `Simulation` is what such a claim comes down to, that a relation
between turtles is kept by every command; it is then kept by every word.
-/

namespace Tendril

variable {α : Type}

/-- Frames at two places that look the same way. -/
structure Frame.Parallel (f g : Frame α) : Prop where
  tangent : f.tangent = g.tangent
  normal : f.normal = g.normal
  binormal : f.binormal = g.binormal

/-- Turtles that turn by the same angle, and whose frames look the same ways, one by one. -/
structure Turtle.Aligned (t s : Turtle α) : Prop where
  angle : t.turnAngle = s.turnAngle
  frame : t.frame.Parallel s.frame
  saved : List.Forall₂ Frame.Parallel t.saved s.saved

variable [Scalar α]

/-- A word without its steps ahead. -/
def strokeless (w : Word) : Word := w.filter (· != 'F')

/-! ## Two drawings side by side -/

/-- A relation between turtles with drawable styles that no command leads out of. -/
structure Simulation (R : Turtle α → Turtle α → Prop) : Prop where
  effect : ∀ {t s next : Turtle α} {command : Command} {segment : Option (Mesh α)}, R t s →
    s.style.fault? = none → t.Effect command segment next →
      ∃ other after, s.Effect command other after ∧ R next after
  fault : ∀ {t s : Turtle α} {command : Command} {failure : Failure α}, R t s →
    t.style.fault? = none → t.Fault command failure → s.Fault command failure

/-- Drawings whose turtles are related, and that go on or have failed alike. -/
structure Abreast (R : Turtle α → Turtle α → Prop) (d e : Drawing α) : Prop where
  related : R d.turtle e.turtle
  failure : d.failure = e.failure
  drawable : d.turtle.style.fault? = none
  drawableToo : e.turtle.style.fault? = none

namespace Simulation

variable {R : Turtle α → Turtle α → Prop} {d e : Drawing α}

theorem step (simulation : Simulation R) (abreast : Abreast R d e) (symbol : Char) :
    Abreast R (d.step symbol) (e.step symbol) := by
  have drawable : (d.step symbol).turtle.style.fault? = none := by
    rw [Drawing.step_style, abreast.drawable]
  have drawableToo : (e.step symbol).turtle.style.fault? = none := by
    rw [Drawing.step_style, abreast.drawableToo]
  -- What the first drawing does is known, and the second does the same.
  suffices same : R (d.step symbol).turtle (e.step symbol).turtle ∧
      (d.step symbol).failure = (e.step symbol).failure from ⟨same.1, same.2, drawable, drawableToo⟩
  have alike := abreast.failure
  have stepped := d.step_spec symbol
  generalize d.step symbol = next at stepped
  cases stepped with
  | halted failed =>
      rw [(Drawing.Step.halted (alike.symm.trans failed)).step_eq]
      exact ⟨abreast.related, alike⟩
  | ignored going unknown =>
      rw [(Drawing.Step.ignored (alike.symm.trans going) unknown).step_eq]
      exact ⟨abreast.related, alike⟩
  | done going known effect =>
      obtain ⟨other, after, effectToo, related⟩ :=
        simulation.effect abreast.related abreast.drawableToo effect
      rw [(Drawing.Step.done (alike.symm.trans going) known effectToo).step_eq]
      exact ⟨related, alike⟩
  | stopped going known fault =>
      have faultToo := simulation.fault abreast.related abreast.drawable fault
      rw [(Drawing.Step.stopped (alike.symm.trans going) known faultToo).step_eq]
      exact ⟨abreast.related, rfl⟩

theorem after (simulation : Simulation R) (abreast : Abreast R d e) (w : Word) :
    Abreast R (d.after w) (e.after w) := by
  induction w generalizing d e with
  | nil => exact abreast
  | cons symbol w ih => exact ih (simulation.step abreast symbol)

/-- A relation that no step ahead leads out of, even if only the first turtle takes it. -/
def PassesStrokes (R : Turtle α → Turtle α → Prop) : Prop :=
  ∀ {t s next : Turtle α} {segment : Option (Mesh α)}, R t s →
    t.Effect .forward segment next → R next s

theorem step_stroke (passes : PassesStrokes R) (abreast : Abreast R d e) :
    Abreast R (d.step 'F') e := by
  have drawable : (d.step 'F').turtle.style.fault? = none := by
    rw [Drawing.step_style, abreast.drawable]
  suffices same : R (d.step 'F').turtle e.turtle ∧ (d.step 'F').failure = e.failure from
    ⟨same.1, same.2, drawable, abreast.drawableToo⟩
  have stepped := d.step_spec 'F'
  generalize d.step 'F' = next at stepped
  cases stepped with
  | halted _ => exact ⟨abreast.related, abreast.failure⟩
  | ignored _ _ => exact ⟨abreast.related, abreast.failure⟩
  | done _ known effect =>
      cases Option.some.inj known
      exact ⟨passes abreast.related effect, abreast.failure⟩
  | stopped _ known fault =>
      -- A style that can be drawn is no reason to fail.
      cases Option.some.inj known
      cases fault with
      | forward undrawable => cases abreast.drawable.symm.trans undrawable

/-- A word and the same word without its steps ahead. -/
theorem after_strokeless (simulation : Simulation R) (passes : PassesStrokes R)
    (abreast : Abreast R d e) (w : Word) : Abreast R (d.after w) (e.after (strokeless w)) := by
  induction w generalizing d e with
  | nil => exact abreast
  | cons symbol w ih =>
      by_cases stroke : symbol = 'F'
      · subst stroke
        exact ih (step_stroke passes abreast)
      · rw [strokeless, List.filter_cons_of_pos (by simpa using stroke)]
        exact ih (simulation.step abreast symbol)

end Simulation

/-! ## Turning at another place -/

namespace Frame

theorem turn_moved (f : Frame α) (location : Vec3 α) (axis : Axis) (angle : α) :
    ({ f with location } : Frame α).turn axis angle =
      (f.turn axis angle).map fun g => { g with location } := by
  cases axis with
  | tangent =>
      unfold turn
      cases turnPair f.normal f.binormal angle <;> rfl
  | normal =>
      unfold turn
      cases turnPair f.tangent f.binormal angle <;> rfl
  | binormal =>
      unfold turn
      cases turnPair f.tangent f.normal angle <;> rfl

namespace Parallel

variable {f g : Frame α}

omit [Scalar α] in
theorem eq_moved (parallel : f.Parallel g) : g = { f with location := g.location } := by
  rw [parallel.tangent, parallel.normal, parallel.binormal]

omit [Scalar α] in
theorem moved (parallel : f.Parallel g) (location : Vec3 α) :
    ({ f with location } : Frame α).Parallel g := ⟨parallel.1, parallel.2, parallel.3⟩

theorem turn (parallel : f.Parallel g) {axis : Axis} {angle : α} {f' : Frame α}
    (turned : f.turn axis angle = .ok f') :
    ∃ g', g.turn axis angle = .ok g' ∧ f'.Parallel g' := by
  refine ⟨{ f' with location := g.location }, ?_, rfl, rfl, rfl⟩
  rw [parallel.eq_moved, turn_moved, turned]
  rfl

theorem turn_eq_error (parallel : f.Parallel g) {axis : Axis} {angle : α} {failure : Failure α}
    (degenerate : f.turn axis angle = .error failure) : g.turn axis angle = .error failure := by
  rw [parallel.eq_moved, turn_moved, degenerate]
  rfl

end Parallel

end Frame

namespace Turtle

theorem Aligned.angle_eq {t s : Turtle α} (aligned : t.Aligned s) (sense : Sense) :
    t.angle sense = s.angle sense := by
  cases sense with
  | positive => exact aligned.angle
  | negative => exact congrArg Neg.neg aligned.angle

/-- A step ahead can always be drawn in a drawable style. -/
theorem exists_effect_forward {t : Turtle α} (drawable : t.style.fault? = none) :
    ∃ m, t.Effect .forward (some m) { t with frame := { t.frame with location := t.ahead } } :=
  ⟨_, .forward (tube_eq_ok_iff.mpr ⟨drawable, rfl⟩)⟩

/-- Whatever one of two aligned turtles does, the other does as well, and they stay aligned. -/
theorem simulation_aligned : Simulation (Aligned (α := α)) where
  effect := by
    intro t s next command segment aligned drawable effect
    cases effect with
    | push =>
        exact ⟨_, _, .push, aligned.angle, aligned.frame, .cons aligned.frame aligned.saved⟩
    | pop top =>
        have saved := aligned.saved
        rw [top] at saved
        obtain ⟨frame, rest, parallel, others, there⟩ := List.forall₂_cons_left_iff.mp saved
        exact ⟨_, _, .pop there, aligned.angle, parallel, others⟩
    | turn turned =>
        rw [aligned.angle_eq] at turned
        obtain ⟨frame, turnedToo, parallel⟩ := aligned.frame.turn turned
        exact ⟨_, _, .turn turnedToo, aligned.angle, parallel, aligned.saved⟩
    | forward drawn =>
        obtain ⟨m, effect⟩ := exists_effect_forward drawable
        exact ⟨_, _, effect, aligned.angle,
          ⟨aligned.frame.tangent, aligned.frame.normal, aligned.frame.binormal⟩, aligned.saved⟩
  fault := by
    intro t s command failure aligned drawable fault
    cases fault with
    | pop empty =>
        have saved := aligned.saved
        rw [empty] at saved
        exact .pop (List.forall₂_nil_left_iff.mp saved)
    | turn degenerate =>
        rw [aligned.angle_eq] at degenerate
        exact .turn (aligned.frame.turn_eq_error degenerate)
    | forward undrawable => cases drawable.symm.trans undrawable

theorem passesStrokes_aligned : Simulation.PassesStrokes (Aligned (α := α)) := by
  intro t s next segment aligned effect
  cases effect with
  | forward drawn => exact ⟨aligned.angle, aligned.frame.moved _, aligned.saved⟩

/-- Two turtles that differ in their styles only go on to do so. -/
theorem simulation_restyled :
    Simulation fun t s : Turtle α => s = { t with style := s.style } where
  effect := by
    intro t s next command segment same drawable effect
    generalize s.style = style at same drawable
    subst same
    cases effect with
    | push => exact ⟨_, _, .push, rfl⟩
    | pop top => exact ⟨_, _, .pop top, rfl⟩
    | turn turned => exact ⟨_, _, .turn turned, rfl⟩
    | forward drawn =>
        obtain ⟨m, effect⟩ := exists_effect_forward (t := { t with style }) drawable
        exact ⟨_, _, effect, rfl⟩
  fault := by
    intro t s command failure same drawable fault
    generalize s.style = style at same
    subst same
    cases fault with
    | pop empty => exact .pop empty
    | turn degenerate => exact .turn degenerate
    | forward undrawable => cases drawable.symm.trans undrawable

/-! ## Whole words -/

/-- A word that gets through draws as many segments as it goes steps ahead. -/
theorem map_length_result (t : Turtle α) (w : Word) :
    (t.draw w).result.map List.length =
      (t.draw w).failure.elim (.ok (w.count 'F')) .error := by
  cases failed : (t.draw w).failure with
  | some failure =>
      rw [Drawing.result_eq_error_iff.mpr failed]
      rfl
  | none =>
      have drawn := Drawing.result_eq_ok_iff.mpr ⟨failed, rfl⟩
      rw [drawn]
      exact congrArg Except.ok (draw_segments drawn).1

/-- Turtles that get equally far with two words and one symbol more stop alike. -/
theorem stopsAt_congr {t s : Turtle α} {u u' : Word} {symbol : Char}
    (through : (t.draw u).failure = (s.draw u').failure)
    (stopped : (t.draw (u ++ [symbol])).failure = (s.draw (u' ++ [symbol])).failure)
    {failure : Failure α} : t.StopsAt u symbol failure ↔ s.StopsAt u' symbol failure := by
  constructor
  · intro stops
    exact ⟨through ▸ stops.through, stopped ▸ stops.stopped⟩
  · intro stops
    exact ⟨through ▸ stops.through, stopped ▸ stops.stopped⟩

/-- Turtles that look the same ways, wherever they are and whatever they draw, read every word alike:
both get through it with as many segments, or both stop at the same symbol for the same reason, and
either way they look the same ways again. It is no different if one of them leaves out the steps
ahead, but for the segments. Turtles that differ only in their styles also stand at the same places,
and go back to the same ones. -/
theorem draw_aligned {t s : Turtle α} (aligned : t.Aligned s) (drawable : t.style.fault? = none)
    (drawableToo : s.style.fault? = none) (w : Word) :
    ((t.draw w).result.map List.length = (s.draw w).result.map List.length ∧
        (∀ u symbol v failure, w = u ++ symbol :: v →
          (t.StopsAt u symbol failure ↔ s.StopsAt u symbol failure)) ∧
        (t.draw w).turtle.Aligned (s.draw w).turtle) ∧
      ((t.draw w).failure = (s.draw (strokeless w)).failure ∧
        (∀ u symbol v failure, w = u ++ symbol :: v →
          (t.StopsAt u symbol failure ↔ s.StopsAt (strokeless u) symbol failure)) ∧
        (t.draw w).turtle.Aligned (s.draw (strokeless w)).turtle) ∧
      (s = { t with style := s.style } →
        (s.draw w).turtle = { (t.draw w).turtle with style := s.style }) := by
  have start : Abreast Aligned (.start t) (.start s) := ⟨aligned, rfl, drawable, drawableToo⟩
  have alike : ∀ w, Abreast Aligned (t.draw w) (s.draw w) := simulation_aligned.after start
  have sparing : ∀ w, Abreast Aligned (t.draw w) (s.draw (strokeless w)) :=
    simulation_aligned.after_strokeless passesStrokes_aligned start
  refine ⟨⟨?_, ?_, (alike w).related⟩, ⟨(sparing w).failure, ?_, (sparing w).related⟩, ?_⟩
  · rw [map_length_result, map_length_result, (alike w).failure]
  · intro u symbol v failure _
    exact stopsAt_congr (alike u).failure (alike (u ++ [symbol])).failure
  · intro u symbol v failure _
    by_cases stroke : symbol = 'F'
    · -- Neither turtle stops at a step ahead.
      exact iff_of_false (fun stops => stops.ne_stroke drawable stroke)
        (fun stops => stops.ne_stroke drawableToo stroke)
    · have stopped := (sparing (u ++ [symbol])).failure
      have kept : strokeless (u ++ [symbol]) = strokeless u ++ [symbol] := by
        simp [strokeless, stroke]
      rw [kept] at stopped
      exact stopsAt_congr (sparing u).failure stopped
  · intro same
    have begun : Abreast (fun t s : Turtle α => s = { t with style := s.style }) (.start t)
      (.start s) := ⟨same, rfl, drawable, drawableToo⟩
    have ended := (simulation_restyled.after begun w).related
    rw [← s.style_draw w]
    exact ended

/-- The climber far away, with longer steps and thicker tubes. -/
def pilgrim : Turtle Float where
  frame := ⟨⟨-7, 0, 1e300⟩, .unitZ, .unitX, .unitY⟩
  saved := [⟨⟨4, 4, 4⟩, .unitX, .unitY, .unitZ⟩, ⟨.origin, .unitY, .unitZ, .unitX⟩]
  turnAngle := 1
  branchLength := 50
  style := ⟨3, 7⟩

theorem pilgrim_draw_aligned :
    (climber.Aligned pilgrim ∧ climber.style.fault? = none ∧ pilgrim.style.fault? = none) ∧
      (climber.draw "[+F&]F]/]]F".toList).turtle.Aligned
        (pilgrim.draw "[+F&]F]/]]F".toList).turtle ∧
      (climber.draw "[+F&]F]/]]F".toList).turtle.Aligned
        (pilgrim.draw "[+&]]/]]".toList).turtle ∧
      (Turtle.draw { climber with style := pilgrim.style } "[+F&]F]/]]F".toList).turtle =
        { (climber.draw "[+F&]F]/]]F".toList).turtle with style := pilgrim.style } := by
  have aligned : climber.Aligned pilgrim :=
    ⟨rfl, ⟨rfl, rfl, rfl⟩, .cons ⟨rfl, rfl, rfl⟩ (.cons ⟨rfl, rfl, rfl⟩ .nil)⟩
  have drawable : climber.style.fault? = none := by decide +kernel
  have drawableToo : pilgrim.style.fault? = none := by decide +kernel
  obtain ⟨⟨_, _, reads⟩, ⟨_, _, spares⟩, _⟩ :=
    draw_aligned aligned drawable drawableToo "[+F&]F]/]]F".toList
  have spared : strokeless "[+F&]F]/]]F".toList = "[+&]]/]]".toList := by decide
  rw [spared] at spares
  have repainted : climber.Aligned { climber with style := pilgrim.style } :=
    ⟨rfl, ⟨rfl, rfl, rfl⟩, .cons ⟨rfl, rfl, rfl⟩ (.cons ⟨rfl, rfl, rfl⟩ .nil)⟩
  have restyled := (draw_aligned repainted drawable drawableToo "[+F&]F]/]]F".toList).2.2 rfl
  exact ⟨⟨aligned, drawable, drawableToo⟩, reads, spares, restyled⟩

end Turtle

end Tendril
