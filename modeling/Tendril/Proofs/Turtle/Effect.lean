import Tendril.Proofs.Turtle.Frame
import Tendril.Turtle.Basic

/-!
# What commands do

`Effect` and `Fault` say once and for all what a command that succeeds does to a turtle, and why one
fails; `Drawing.Step` says the same of a symbol of a word. Every invariant of a drawing is a case
analysis over these relations and an induction over the word: nothing else unfolds the machine.
-/

namespace Tendril

variable {α : Type} [Scalar α]

namespace Command

/-- The symbol that stands for a command. -/
def symbol : Command → Char
  | .push => '['
  | .pop => ']'
  | .turn .tangent .positive => '+'
  | .turn .tangent .negative => '-'
  | .turn .normal .positive => '&'
  | .turn .normal .negative => '^'
  | .turn .binormal .positive => '\\'
  | .turn .binormal .negative => '/'
  | .forward => 'F'

/-- Every command has one symbol, and no other stands for it. -/
theorem ofSymbol?_eq_some_iff {symbol : Char} {command : Command} :
    ofSymbol? symbol = some command ↔ symbol = command.symbol := by
  constructor
  · intro known
    unfold ofSymbol? at known
    split at known <;> cases known <;> rfl
  · rintro rfl
    cases command with
    | turn axis sense => cases axis <;> cases sense <;> rfl
    | _ => rfl

end Command

namespace Turtle

/-- The angle of a turn. -/
def angle (t : Turtle α) : Sense → α
  | .positive => t.turnAngle
  | .negative => -t.turnAngle

/-- What a command that succeeds draws, and the turtle that it leaves. -/
inductive Effect (t : Turtle α) : Command → Option (Mesh α) → Turtle α → Prop
  | push : Effect t .push none { t with saved := t.frame :: t.saved }
  | pop {frame : Frame α} {saved : List (Frame α)} (top : t.saved = frame :: saved) :
      Effect t .pop none { t with frame, saved }
  | turn {axis : Axis} {sense : Sense} {frame : Frame α}
      (turned : t.frame.turn axis (t.angle sense) = .ok frame) :
      Effect t (.turn axis sense) none { t with frame }
  | forward {segment : Mesh α}
      (drawn : tube t.frame.location t.ahead t.frame.normal t.frame.binormal t.style =
        .ok segment) :
      Effect t .forward (some segment) { t with frame := { t.frame with location := t.ahead } }

/-- Why a command fails. -/
inductive Fault (t : Turtle α) : Command → Failure α → Prop
  | pop (empty : t.saved = []) : Fault t .pop .emptyStack
  | turn {axis : Axis} {sense : Sense}
      (degenerate : t.frame.turn axis (t.angle sense) = .error .noDirection) :
      Fault t (.turn axis sense) .noDirection
  | forward {cause : Misuse α} (undrawable : t.style.fault? = some cause) :
      Fault t .forward (.misuse cause)

theorem turn_eq (t : Turtle α) (axis : Axis) (sense : Sense) :
    t.turn axis sense = do
      let frame ← t.frame.turn axis (t.angle sense)
      return { t with frame } := by
  cases sense <;> rfl

/-- Nothing but the style decides whether a step ahead can be drawn. -/
theorem tube_eq_error_iff (start finish normal binormal : Vec3 α) (style : TubeStyle α)
    (failure : Failure α) :
    tube start finish normal binormal style = .error failure ↔
      ∃ cause, style.fault? = some cause ∧ failure = .misuse cause := by
  unfold tube
  cases style.fault? <;> simp [eq_comm]

theorem execute_eq_ok_iff {t next : Turtle α} {command : Command} {segment : Option (Mesh α)} :
    t.execute command = .ok (segment, next) ↔ t.Effect command segment next := by
  constructor
  · intro executed
    cases command with
    | push =>
        cases executed
        exact .push
    | pop =>
        obtain ⟨left, popped, finished⟩ := bind_eq_ok_iff.mp executed
        cases finished
        unfold pop at popped
        cases top : t.saved with
        | nil => simp [top] at popped
        | cons frame saved =>
            simp only [top] at popped
            cases popped
            exact .pop top
    | turn axis sense =>
        obtain ⟨left, turned, finished⟩ := bind_eq_ok_iff.mp executed
        cases finished
        rw [turn_eq] at turned
        obtain ⟨frame, frameTurned, placed⟩ := bind_eq_ok_iff.mp turned
        cases placed
        exact .turn frameTurned
    | forward =>
        obtain ⟨⟨mesh, left⟩, moved, finished⟩ := bind_eq_ok_iff.mp executed
        cases finished
        obtain ⟨mesh, drawn, placed⟩ := bind_eq_ok_iff.mp moved
        cases placed
        exact .forward drawn
  · intro effect
    cases effect with
    | push => rfl
    | pop top => simp [execute, pop, top, bind_eq_ok_iff, pure, Except.pure]
    | turn turned => simp [execute, turn_eq, turned, bind, Except.bind, pure, Except.pure]
    | forward drawn => simp [execute, forward, drawn, bind, Except.bind, pure, Except.pure]

theorem execute_eq_error_iff {t : Turtle α} {command : Command} {failure : Failure α} :
    t.execute command = .error failure ↔ t.Fault command failure := by
  constructor
  · intro failed
    cases command with
    | push => cases failed
    | pop =>
        rcases bind_eq_error_iff.mp failed with popFailed | ⟨_, _, finished⟩
        · unfold pop at popFailed
          cases top : t.saved with
          | nil =>
              simp only [top] at popFailed
              cases popFailed
              exact .pop top
          | cons frame saved => simp [top] at popFailed
        · cases finished
    | turn axis sense =>
        rcases bind_eq_error_iff.mp failed with turnFailed | ⟨_, _, finished⟩
        · rw [turn_eq] at turnFailed
          rcases bind_eq_error_iff.mp turnFailed with frameFailed | ⟨_, _, finished⟩
          · cases Frame.turn_eq_error frameFailed
            exact .turn frameFailed
          · cases finished
        · cases finished
    | forward =>
        rcases bind_eq_error_iff.mp failed with moveFailed | ⟨_, _, finished⟩
        · rcases bind_eq_error_iff.mp moveFailed with tubeFailed | ⟨_, _, finished⟩
          · obtain ⟨cause, undrawable, rfl⟩ := (tube_eq_error_iff ..).mp tubeFailed
            exact .forward undrawable
          · cases finished
        · cases finished
  · intro fault
    cases fault with
    | pop empty => simp [execute, pop, empty, bind, Except.bind]
    | turn degenerate => simp [execute, turn_eq, degenerate, bind, Except.bind]
    | forward undrawable =>
        have failed := (tube_eq_error_iff t.frame.location t.ahead t.frame.normal t.frame.binormal
          t.style _).mpr ⟨_, undrawable, rfl⟩
        simp [execute, forward, failed, bind, Except.bind]

/-- A command leaves the settings of a turtle alone. -/
theorem Effect.settings {t next : Turtle α} {command : Command} {segment : Option (Mesh α)}
    (effect : t.Effect command segment next) :
    next.turnAngle = t.turnAngle ∧ next.branchLength = t.branchLength ∧ next.style = t.style := by
  cases effect <;> exact ⟨rfl, rfl, rfl⟩

end Turtle

namespace Drawing

omit [Scalar α] in
theorem result_eq_ok_iff {d : Drawing α} {segments : List (Mesh α)} :
    d.result = .ok segments ↔ d.failure = none ∧ d.segments.toList = segments := by
  unfold result
  cases d.failure <;> simp

omit [Scalar α] in
theorem result_eq_error_iff {d : Drawing α} {failure : Failure α} :
    d.result = .error failure ↔ d.failure = some failure := by
  unfold result
  cases d.failure <;> simp

/-- What a symbol makes of a drawing. -/
inductive Step (d : Drawing α) (symbol : Char) : Drawing α → Prop
  | halted {failure : Failure α} (failed : d.failure = some failure) : Step d symbol d
  | ignored (going : d.failure = none) (unknown : Command.ofSymbol? symbol = none) :
      Step d symbol d
  | done {command : Command} {segment : Option (Mesh α)} {turtle : Turtle α}
      (going : d.failure = none) (known : Command.ofSymbol? symbol = some command)
      (effect : d.turtle.Effect command segment turtle) :
      Step d symbol { d with turtle, segments := d.segments.appendList segment.toList }
  | stopped {command : Command} {failure : Failure α} (going : d.failure = none)
      (known : Command.ofSymbol? symbol = some command) (fault : d.turtle.Fault command failure) :
      Step d symbol { d with failure := some failure }

theorem Step.step_eq {d next : Drawing α} {symbol : Char} (stepped : d.Step symbol next) :
    d.step symbol = next := by
  unfold step
  cases stepped with
  | halted failed => simp only [failed]
  | ignored going unknown => simp only [going, unknown]
  | done going known effect =>
      simp only [going, known, Turtle.execute_eq_ok_iff.mpr effect]
  | stopped going known fault =>
      simp only [going, known, Turtle.execute_eq_error_iff.mpr fault]

theorem step_spec (d : Drawing α) (symbol : Char) : d.Step symbol (d.step symbol) := by
  -- A step has one outcome, so it is enough to find one that the relation allows.
  suffices found : ∃ next, d.Step symbol next by
    obtain ⟨next, stepped⟩ := found
    rw [stepped.step_eq]
    exact stepped
  cases going : d.failure with
  | some failure => exact ⟨d, .halted going⟩
  | none =>
      cases known : Command.ofSymbol? symbol with
      | none => exact ⟨d, .ignored going known⟩
      | some command =>
          cases executed : d.turtle.execute command with
          | error failure =>
              exact ⟨_, .stopped going known (Turtle.execute_eq_error_iff.mp executed)⟩
          | ok result => exact ⟨_, .done going known (Turtle.execute_eq_ok_iff.mp executed)⟩

/-- The drawing once a word is read as well. -/
def after (d : Drawing α) (w : Word) : Drawing α := w.foldl step d

@[simp] theorem after_nil (d : Drawing α) : d.after [] = d := rfl

@[simp] theorem after_cons (d : Drawing α) (symbol : Char) (w : Word) :
    d.after (symbol :: w) = (d.step symbol).after w := rfl

theorem after_append (d : Drawing α) (u v : Word) : d.after (u ++ v) = (d.after u).after v :=
  List.foldl_append

/-- What has failed stays as it is. -/
theorem after_failed {d : Drawing α} {failure : Failure α} (failed : d.failure = some failure)
    (w : Word) : d.after w = d := by
  induction w with
  | nil => rfl
  | cons symbol w ih =>
      rw [after_cons, (Step.halted failed).step_eq]
      exact ih

/-- A drawing that gets through a word gets through its first symbol. -/
theorem going_step {d : Drawing α} {symbol : Char} {w : Word}
    (through : (d.after (symbol :: w)).failure = none) : (d.step symbol).failure = none := by
  cases failed : (d.step symbol).failure with
  | none => rfl
  | some failure =>
      rw [after_cons, after_failed failed, failed] at through
      cases through

end Drawing

theorem Turtle.draw_eq_after (t : Turtle α) (w : Word) : t.draw w = (Drawing.start t).after w := rfl

end Tendril
