import Tendril.Proofs.Grammar.Nesting
import Tendril.Proofs.Turtle.Effect

/-!
# The depth of a turtle

The stack of a turtle is as deep as the brackets of the word that it reads: a drawing that gets
through a word ends at the depth to which the word leads, and one that finds its stack empty was
reading a word that leads nowhere.
-/

namespace Tendril

variable {α : Type} [Scalar α]

namespace Command

/-- Symbols that mean neither a push nor a pop are no brackets. -/
theorem plain_of_ofSymbol? {symbol : Char} (noPush : ofSymbol? symbol ≠ some .push)
    (noPop : ofSymbol? symbol ≠ some .pop) : symbol ≠ '[' ∧ symbol ≠ ']' :=
  ⟨fun isOpen => noPush (ofSymbol?_eq_some_iff.mpr isOpen),
    fun isClose => noPop (ofSymbol?_eq_some_iff.mpr isClose)⟩

end Command

/-- A command moves the stack of a turtle as its symbol moves the depth of nesting. -/
theorem Turtle.Effect.depth {t next : Turtle α} {symbol : Char} {command : Command}
    {segment : Option (Mesh α)} (effect : t.Effect command segment next)
    (known : Command.ofSymbol? symbol = some command) :
    depthStep? t.depth symbol = some next.depth := by
  cases effect with
  | push =>
      rw [Command.ofSymbol?_eq_some_iff.mp known]
      rfl
  | pop top =>
      rw [Command.ofSymbol?_eq_some_iff.mp known]
      simp [Command.symbol, depthStep?, Turtle.depth, top]
  | turn turned =>
      exact depthStep?_plain (Command.plain_of_ofSymbol? (by simp [known]) (by simp [known])) _
  | forward drawn =>
      exact depthStep?_plain (Command.plain_of_ofSymbol? (by simp [known]) (by simp [known])) _

namespace Drawing

theorem Step.depth {d next : Drawing α} {symbol : Char} (stepped : d.Step symbol next)
    (going : next.failure = none) :
    depthStep? d.turtle.depth symbol = some next.turtle.depth := by
  cases stepped with
  | halted failed =>
      rw [failed] at going
      cases going
  | ignored _ unknown =>
      exact depthStep?_plain (Command.plain_of_ofSymbol? (by simp [unknown]) (by simp [unknown])) _
  | done _ known effect => exact effect.depth known
  | stopped _ _ _ => cases going

/-- A drawing that gets through a word ends where the brackets of the word lead. -/
theorem depthAfter?_of_going (d : Drawing α) (w : Word) (through : (d.after w).failure = none) :
    depthAfter? d.turtle.depth w = some (d.after w).turtle.depth := by
  induction w generalizing d with
  | nil => rfl
  | cons symbol w ih =>
      rw [depthAfter?_cons, (step_spec d symbol).depth (going_step through), Option.bind_some]
      exact ih (d.step symbol) through

/-- A drawing finds its stack empty only within a word that leads nowhere from its depth. -/
theorem depthAfter?_of_emptyStack (d : Drawing α) (w : Word) (going : d.failure = none)
    (stuck : (d.after w).failure = some .emptyStack) : depthAfter? d.turtle.depth w = none := by
  induction w generalizing d with
  | nil =>
      rw [after_nil, going] at stuck
      cases stuck
  | cons symbol w ih =>
      rw [after_cons] at stuck
      have stepped := step_spec d symbol
      rw [depthAfter?_cons]
      cases next : (d.step symbol).failure with
      | none =>
          rw [stepped.depth next, Option.bind_some]
          exact ih (d.step symbol) next stuck
      | some failure =>
          rw [after_failed next, next] at stuck
          cases stuck
          -- This symbol failed, and of all commands only a pop fails so.
          generalize d.step symbol = after at stepped next
          cases stepped with
          | halted failed => simp [going] at failed
          | ignored _ _ => simp [going] at next
          | done _ _ _ => simp [going] at next
          | stopped _ known fault =>
              cases next
              cases fault with
              | pop empty =>
                  rw [Command.ofSymbol?_eq_some_iff.mp known]
                  simp [Command.symbol, depthStep?, Turtle.depth, empty]

end Drawing

/-- A word that leads somewhere from the depth of a turtle never finds its stack empty. -/
theorem Turtle.draw_ne_emptyStack {t : Turtle α} {w : Word} {depth : Nat}
    (leads : depthAfter? t.depth w = some depth) : (t.draw w).failure ≠ some .emptyStack := by
  intro stuck
  have nowhere := Drawing.depthAfter?_of_emptyStack (Drawing.start t) w rfl stuck
  rw [show (Drawing.start t).turtle.depth = t.depth from rfl, leads] at nowhere
  cases nowhere

/-- A turtle that gets through a word ends at the depth to which the word leads. -/
theorem Turtle.depth_draw {t : Turtle α} {w : Word} (through : (t.draw w).failure = none) :
    depthAfter? t.depth w = some (t.draw w).turtle.depth :=
  Drawing.depthAfter?_of_going (Drawing.start t) w through

end Tendril
