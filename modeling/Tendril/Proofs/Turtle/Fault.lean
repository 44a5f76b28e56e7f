import Tendril.Proofs.Turtle.Effect

/-!
# Which symbol fails

A turtle whose style can be drawn fails at a symbol for two reasons only: a bracket closes none that
is open, or a turn leaves a direction of the frame without length. `symbolFault?` says so of a
symbol and `Drawing.fault?` of a word, where the first symbol that fails decides; no drawing changes
the style, so steps ahead never fail.
-/

namespace Tendril

variable {α : Type} [Scalar α]

namespace Turtle

/-- Why a symbol fails: a bracket that closes none, or a turn that cannot be made. -/
def symbolFault? (t : Turtle α) (symbol : Char) : Option (Failure α) :=
  match Command.ofSymbol? symbol with
  | some .pop => if t.depth = 0 then some .emptyStack else none
  | some (.turn axis sense) => t.frame.turnFault? axis (t.angle sense)
  | _ => none

/-- Steps ahead, pushes and symbols that mean nothing have no fault. -/
theorem symbolFault?_harmless (t : Turtle α) {symbol : Char}
    (harmless : symbol = 'F' ∨ symbol = '[' ∨ Command.ofSymbol? symbol = none) :
    t.symbolFault? symbol = none := by
  unfold symbolFault?
  rcases harmless with rfl | rfl | unknown
  · rfl
  · rfl
  · rw [unknown]

/-- A command that succeeds stands for a symbol without a fault. -/
theorem Effect.symbolFault? {t next : Turtle α} {symbol : Char} {command : Command}
    {segment : Option (Mesh α)} (effect : t.Effect command segment next)
    (known : Command.ofSymbol? symbol = some command) : t.symbolFault? symbol = none := by
  unfold Turtle.symbolFault?
  rw [known]
  cases effect with
  | push => rfl
  | pop top => simp [Turtle.depth, top]
  | @turn axis sense _ turned =>
      show t.frame.turnFault? axis (t.angle sense) = none
      rw [← Frame.failure?_turn, turned, failure?_ok]
  | forward drawn => rfl

/-- A command that fails does so with the fault of its symbol, when the style can be drawn. -/
theorem Fault.symbolFault? {t : Turtle α} {symbol : Char} {command : Command} {failure : Failure α}
    (fault : t.Fault command failure) (known : Command.ofSymbol? symbol = some command)
    (drawable : t.style.fault? = none) : t.symbolFault? symbol = some failure := by
  unfold Turtle.symbolFault?
  rw [known]
  cases fault with
  | pop empty => simp [Turtle.depth, empty]
  | @turn axis sense degenerate =>
      show t.frame.turnFault? axis (t.angle sense) = some .noDirection
      rw [← Frame.failure?_turn, degenerate, failure?_error]
  | forward undrawable =>
      rw [drawable] at undrawable
      cases undrawable

theorem symbolFault?_eq_some {t : Turtle α} {symbol : Char} {failure : Failure α}
    (fails : t.symbolFault? symbol = some failure) :
    failure = .emptyStack ∨ failure = .noDirection := by
  unfold symbolFault? at fails
  split at fails
  · split at fails <;> cases fails
    exact .inl rfl
  · exact .inr (eq_of_lack fails)
  · cases fails

end Turtle

namespace Drawing

/-- The fault of the first symbol of a word that fails, each on the turtle that the symbols before
it leave. -/
def fault? (d : Drawing α) : Word → Option (Failure α)
  | [] => none
  | symbol :: w => (d.turtle.symbolFault? symbol).or ((d.step symbol).fault? w)

theorem step_style (d : Drawing α) (symbol : Char) :
    (d.step symbol).turtle.style = d.turtle.style := by
  have stepped := step_spec d symbol
  generalize d.step symbol = next at stepped
  cases stepped with
  | halted _ => rfl
  | ignored _ _ => rfl
  | done _ _ effect => exact effect.settings.2.2
  | stopped _ _ _ => rfl

/-- A symbol fails for its fault and for nothing else. -/
theorem step_failure {d : Drawing α} (going : d.failure = none)
    (drawable : d.turtle.style.fault? = none) (symbol : Char) :
    (d.step symbol).failure = d.turtle.symbolFault? symbol := by
  have stepped := step_spec d symbol
  generalize d.step symbol = next at stepped
  cases stepped with
  | halted failed =>
      rw [going] at failed
      cases failed
  | ignored _ unknown => rw [going, Turtle.symbolFault?, unknown]
  | done _ known effect => rw [effect.symbolFault? known, ← going]
  | stopped _ known fault => rw [fault.symbolFault? known drawable]

/-- A word fails with the fault of its first symbol that fails. -/
theorem after_failure {d : Drawing α} (going : d.failure = none)
    (drawable : d.turtle.style.fault? = none) (w : Word) : (d.after w).failure = d.fault? w := by
  induction w generalizing d with
  | nil => exact going
  | cons symbol w ih =>
      have here := step_failure going drawable symbol
      rw [after_cons, fault?]
      cases fault : d.turtle.symbolFault? symbol with
      | some failure =>
          rw [fault] at here
          rw [after_failed here, here, Option.some_or]
      | none =>
          rw [fault] at here
          rw [Option.none_or]
          exact ih here (by rw [step_style]; exact drawable)

theorem fault?_append (d : Drawing α) (u v : Word) :
    d.fault? (u ++ v) = (d.fault? u).or ((d.after u).fault? v) := by
  induction u generalizing d with
  | nil => rfl
  | cons symbol u ih => rw [List.cons_append, fault?, fault?, ih, after_cons, Option.or_assoc]

/-- The symbol that a word fails at, and what the turtle was before it. -/
theorem fault?_eq_some_iff {d : Drawing α} {w : Word} {failure : Failure α} :
    d.fault? w = some failure ↔ ∃ u symbol v, w = u ++ symbol :: v ∧ d.fault? u = none ∧
      (d.after u).turtle.symbolFault? symbol = some failure := by
  constructor
  · intro fails
    induction w generalizing d with
    | nil => cases fails
    | cons symbol w ih =>
        rw [fault?, Option.or_eq_some_iff] at fails
        rcases fails with here | ⟨passed, later⟩
        · exact ⟨[], symbol, w, rfl, rfl, here⟩
        · obtain ⟨u, culprit, v, rfl, before, there⟩ := ih later
          have begins : d.fault? (symbol :: u) = none := by
            rw [fault?, passed, Option.none_or, before]
          exact ⟨symbol :: u, culprit, v, rfl, begins, there⟩
  · rintro ⟨u, symbol, v, rfl, before, there⟩
    rw [fault?_append, before, Option.none_or, fault?, there, Option.some_or]

end Drawing

end Tendril
