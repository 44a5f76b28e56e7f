import Tendril.Proofs.Turtle.Depth

/-!
# Frames below

What a turtle saved before it reads a word is out of the word's reach as long as the word pops no
more than it pushes. The law is a frame rule: put any frames below the stack of a turtle, and a
drawing that does not run out of frames stays what it was, with the same frames below. A branch,
that is a balanced word in brackets, therefore leaves a turtle exactly as it was.
-/

namespace Tendril

variable {α : Type}

namespace Turtle

/-- The turtle with further frames below those that it saved. -/
def onto (t : Turtle α) (base : List (Frame α)) : Turtle α := { t with saved := t.saved ++ base }

/-- The turtle with nothing saved. -/
def bare (t : Turtle α) : Turtle α := { t with saved := [] }

theorem onto_saved (t : Turtle α) (base : List (Frame α)) :
    (t.onto base).saved = t.saved ++ base := rfl

end Turtle

/-- The drawing with further frames below those that its turtle saved. -/
def Drawing.onto (d : Drawing α) (base : List (Frame α)) : Drawing α :=
  { d with turtle := d.turtle.onto base }

variable [Scalar α]

namespace Turtle

/-- Commands look at the top of the stack only. -/
theorem Effect.onto {t next : Turtle α} {command : Command} {segment : Option (Mesh α)}
    (effect : t.Effect command segment next) (base : List (Frame α)) :
    (t.onto base).Effect command segment (next.onto base) := by
  cases effect with
  | push => exact .push
  | pop top => exact .pop (by rw [onto_saved, top, List.cons_append])
  | turn turned => exact .turn turned
  | forward drawn => exact .forward drawn

/-- More frames below cure no failure but that of an empty stack. -/
theorem Fault.onto {t : Turtle α} {command : Command} {failure : Failure α}
    (fault : t.Fault command failure) (nonempty : failure ≠ .emptyStack) (base : List (Frame α)) :
    (t.onto base).Fault command failure := by
  cases fault with
  | pop empty => exact absurd rfl nonempty
  | turn degenerate => exact .turn degenerate
  | forward undrawable => exact .forward undrawable

end Turtle

namespace Drawing

theorem Step.onto {d next : Drawing α} {symbol : Char} (stepped : d.Step symbol next)
    (nonempty : next.failure ≠ some .emptyStack) (base : List (Frame α)) :
    (d.onto base).Step symbol (next.onto base) := by
  cases stepped with
  | halted failed => exact .halted failed
  | ignored going unknown => exact .ignored going unknown
  | done going known effect => exact .done going known (effect.onto base)
  | stopped going known fault =>
      exact .stopped going known (fault.onto (fun same => nonempty (same ▸ rfl)) base)

/-- The frame rule: a drawing that does not run out of frames is the same on top of any others. -/
theorem after_onto (d : Drawing α) (w : Word) (nonempty : (d.after w).failure ≠ some .emptyStack)
    (base : List (Frame α)) : (d.onto base).after w = (d.after w).onto base := by
  induction w generalizing d with
  | nil => rfl
  | cons symbol w ih =>
      have stepNonempty : (d.step symbol).failure ≠ some .emptyStack := by
        -- An empty stack here would still be the failure at the end.
        intro stuck
        apply nonempty
        rw [after_cons, after_failed stuck, stuck]
      rw [after_cons, after_cons, ((step_spec d symbol).onto stepNonempty base).step_eq]
      exact ih (d.step symbol) nonempty

/-- A drawing leaves the settings of its turtle alone. -/
theorem after_settings (d : Drawing α) (w : Word) :
    (d.after w).turtle.turnAngle = d.turtle.turnAngle ∧
      (d.after w).turtle.branchLength = d.turtle.branchLength ∧
      (d.after w).turtle.style = d.turtle.style := by
  induction w generalizing d with
  | nil => exact ⟨rfl, rfl, rfl⟩
  | cons symbol w ih =>
      obtain ⟨angle, length, style⟩ := ih (d.step symbol)
      have stepped := step_spec d symbol
      rw [after_cons, angle, length, style]
      generalize d.step symbol = next at stepped
      cases stepped with
      | halted _ => exact ⟨rfl, rfl, rfl⟩
      | ignored _ _ => exact ⟨rfl, rfl, rfl⟩
      | done _ _ effect => exact effect.settings
      | stopped _ _ _ => exact ⟨rfl, rfl, rfl⟩

end Drawing

namespace Turtle

theorem style_draw (t : Turtle α) (w : Word) : (t.draw w).turtle.style = t.style :=
  (Drawing.after_settings (.start t) w).2.2

/-- A nested word is drawn alike on top of whatever was saved, and ends as deep above it as it
opens more brackets than it closes. -/
theorem draw_bare (t : Turtle α) {w : Word} (nested : Nested w) (base : List (Frame α)) :
    (t.bare.onto base).draw w = (t.bare.draw w).onto base ∧
      ((t.bare.draw w).failure = none →
        (t.bare.draw w).turtle.saved.length = w.count '[' - w.count ']') := by
  have leads : depthAfter? t.bare.depth w = some (w.count '[' - w.count ']') :=
    depthAfter?_of_nested nested
  refine ⟨Drawing.after_onto (.start t.bare) w (draw_ne_emptyStack leads) base, fun through => ?_⟩
  have ends := depth_draw through
  rw [leads, Option.some.injEq] at ends
  exact ends.symm

theorem bareThrough_of_through {t : Turtle α} {w : Word} (nested : Nested w)
    (through : (t.draw w).failure = none) : (t.bare.draw w).failure = none := by
  have same := congrArg Drawing.failure (draw_bare t nested t.saved).1
  exact same.symm.trans through

/-- A branch draws what its word draws on its own, and leaves no trace in the turtle. -/
theorem draw_branch {t : Turtle α} {w : Word} (balanced : Balanced w)
    (through : (t.bare.draw w).failure = none) :
    t.draw ('[' :: w ++ [']']) = ⟨t, (t.bare.draw w).segments, none⟩ := by
  obtain ⟨same, ends⟩ := draw_bare t balanced.nested (t.frame :: t.saved)
  have empty : (t.bare.draw w).turtle.saved = [] := by
    apply List.eq_nil_of_length_eq_zero
    rw [ends through, balanced.closed, Nat.sub_self]
  -- The opening bracket puts the frame below the word, and the closing one takes it from there.
  have pushed : t.draw ('[' :: w) = (t.bare.draw w).onto (t.frame :: t.saved) := same
  have top : ((t.bare.draw w).onto (t.frame :: t.saved)).turtle.saved = t.frame :: t.saved := by
    show (t.bare.draw w).turtle.saved ++ t.frame :: t.saved = t.frame :: t.saved
    rw [empty, List.nil_append]
  have popped := (Drawing.Step.done (d := (t.bare.draw w).onto (t.frame :: t.saved)) through
    (rfl : Command.ofSymbol? ']' = some .pop) (Effect.pop top)).step_eq
  obtain ⟨angle, length, style⟩ := Drawing.after_settings (.start t.bare) w
  rw [← draw_eq_after] at angle length style
  have read : t.draw ('[' :: w ++ [']']) = (t.draw ('[' :: w)).step ']' :=
    Drawing.after_append (.start t) ('[' :: w) [']']
  rw [read, pushed, popped]
  simp [Drawing.onto, onto, angle, length, style, through]
  rfl

/-- A nested word that is drawn without a failure leaves the frames saved before where they were,
with as many above them as it leaves brackets open. If it is balanced, then in brackets it is drawn
without a failure as well and changes nothing about the turtle. -/
theorem draw_nested (t : Turtle α) (w : Word) (through : (t.draw w).failure = none)
    (nested : Nested w) :
    (∃ above, (t.draw w).turtle.saved = above ++ t.saved ∧
        above.length + w.count ']' = w.count '[') ∧
      (w.count '[' = w.count ']' →
        (t.draw ('[' :: w ++ [']'])).failure = none ∧
          (t.draw ('[' :: w ++ [']'])).turtle = t) := by
  obtain ⟨same, ends⟩ := draw_bare t nested t.saved
  have bareThrough := bareThrough_of_through nested through
  constructor
  · refine ⟨(t.bare.draw w).turtle.saved, congrArg (fun d => d.turtle.saved) same, ?_⟩
    have whole := nested w (List.prefix_refl w)
    rw [ends bareThrough]
    omega
  · intro closed
    rw [draw_branch ⟨nested, closed⟩ bareThrough]
    exact ⟨rfl, rfl⟩

/-- A turtle that has saved two frames. -/
def climber : Turtle Float where
  frame := ⟨⟨1, 2, 3⟩, .unitZ, .unitX, .unitY⟩
  saved := [⟨.origin, .unitX, .unitY, .unitZ⟩, ⟨⟨0, -1, 0⟩, .unitY, .unitZ, .unitX⟩]
  turnAngle := 1
  branchLength := 2
  style := ⟨0.5, 3⟩

theorem climber_draw_nested :
    ((climber.draw "F[F[F]".toList).failure = none ∧
        ∃ above, (climber.draw "F[F[F]".toList).turtle.saved = above ++ climber.saved ∧
          above.length + 1 = 2) ∧
      (climber.draw "[F[F]F]".toList).failure = none ∧
        (climber.draw "[F[F]F]".toList).turtle = climber := by
  have left : (climber.draw "F[F[F]".toList).failure = none := by decide
  have closed : (climber.draw "F[F]F".toList).failure = none := by decide
  exact ⟨⟨left, (draw_nested climber _ left (by decide)).1⟩,
    (draw_nested climber _ closed (by decide)).2 (by decide)⟩

end Turtle

end Tendril
