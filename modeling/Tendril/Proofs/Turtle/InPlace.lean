import Tendril.Proofs.Turtle.Pieces

/-!
# Turtles in place

Here commands are carried out on a turtle in place, one assignment after the other: a frame is taken
off the stack before it is gone back to, and a turn writes the two directions that it moves in turn.
What is assigned is assigned, even if something fails behind it. It turns out that nothing does: all
that can fail is done before the first assignment. So a command in place is the command that leaves
the turtle as it was when it fails, and a word in place is the word as it is drawn.
-/

namespace Tendril

variable {α β γ : Type}

/-- What is done to a turtle in place. -/
abbrev InPlace (α β : Type) := ExceptT (Failure α) (StateM (Turtle α)) β

namespace InPlace

/-- What comes of it for a turtle: the answer or the failure, and what the turtle is then. -/
def on (run : InPlace α β) (t : Turtle α) : Except (Failure α) β × Turtle α :=
  StateT.run (ExceptT.run run) t

/-! ## One assignment at a time -/

def push : InPlace α Unit := modify fun t => { t with saved := t.frame :: t.saved }

/-- Takes the frame saved last off the stack, if there is one. -/
def takeSaved : InPlace α (Option (Frame α)) :=
  modifyGet fun t =>
    match t.saved with
    | [] => (none, t)
    | frame :: saved => (some frame, { t with saved })

def pop : InPlace α Unit := do
  match ← takeSaved with
  | none => throw .emptyStack
  | some frame => modify fun t => { t with frame }

def modifyFrame (change : Frame α → Frame α) : InPlace α Unit :=
  modify fun t => { t with frame := change t.frame }

variable [Scalar α]

def turn (axis : Axis) (sense : Sense) : InPlace α Unit := do
  let angle := (← get).angle sense
  let frame := (← get).frame
  match axis with
  | .tangent =>
      let (normal, binormal) ← liftM (turnPair frame.normal frame.binormal angle)
      modifyFrame fun f => { f with normal }
      modifyFrame fun f => { f with binormal }
  | .normal =>
      let (tangent, binormal) ← liftM (turnPair frame.tangent frame.binormal angle)
      modifyFrame fun f => { f with tangent }
      modifyFrame fun f => { f with binormal }
  | .binormal =>
      let (tangent, normal) ← liftM (turnPair frame.tangent frame.normal angle)
      modifyFrame fun f => { f with tangent }
      modifyFrame fun f => { f with normal }

def forward : InPlace α (Mesh α) := do
  let t ← get
  let finish := t.ahead
  let segment ← liftM <|
    tube t.frame.location finish t.frame.normal t.frame.binormal t.style
  modifyFrame fun f => { f with location := finish }
  return segment

def execute : Command → InPlace α (Option (Mesh α))
  | .push => do
      push
      return none
  | .pop => do
      pop
      return none
  | .turn axis sense => do
      turn axis sense
      return none
  | .forward => some <$> forward

/-- Carries out a command and puts what it draws behind the segments that there are. -/
def drawNext (segments : Array (Mesh α)) (command : Command) : InPlace α (Array (Mesh α)) := do
  match ← execute command with
  | some segment => return segments.push segment
  | none => return segments

/-- Carries out the commands of a word, after the given segments are drawn. -/
def readBehind (segments : Array (Mesh α)) (w : Word) : InPlace α (List (Mesh α)) := do
  let all ← (w.filterMap Command.ofSymbol?).foldlM drawNext segments
  return all.toList

def read (w : Word) : InPlace α (List (Mesh α)) := readBehind #[] w

/-! ## What comes of the steps -/

section Steps

omit [Scalar α]

theorem on_bind (first : InPlace α β) (next : β → InPlace α γ) (t : Turtle α) :
    (first >>= next).on t = goOn (first.on t) fun b mid => (next b).on mid := by
  show StateT.run (ExceptT.run (first >>= next)) t = _
  rw [ExceptT.run_bind, StateT.run_bind]
  unfold on
  rcases StateT.run (ExceptT.run first) t with ⟨failure | b, mid⟩ <;> rfl

theorem on_get (t : Turtle α) : (get : InPlace α (Turtle α)).on t = (.ok t, t) := rfl

theorem on_modifyGet (change : Turtle α → β × Turtle α) (t : Turtle α) :
    (modifyGet change : InPlace α β).on t = (.ok (change t).1, (change t).2) := rfl

/-- What has no part in the turtle is known before anything is assigned. -/
theorem on_lift (run : Except (Failure α) β) (t : Turtle α) :
    (liftM run : InPlace α β).on t = (run, t) := by
  cases run <;> rfl

end Steps

/-- What comes of a change that is made as a whole or not at all. -/
def settle (t : Turtle α) :
    Except (Failure α) (β × Turtle α) → Except (Failure α) β × Turtle α
  | .ok (b, next) => (.ok b, next)
  | .error failure => (.error failure, t)

omit [Scalar α] in
theorem on_pop (t : Turtle α) : pop.on t = settle t (t.pop.map ((), ·)) := by
  unfold pop Turtle.pop
  rw [on_bind]
  cases saved : t.saved with
  | nil =>
      have taken : takeSaved.on t = (.ok none, t) := by
        simp only [takeSaved, on_modifyGet, saved]
      rw [taken]
      rfl
  | cons frame rest =>
      have taken : takeSaved.on t = (.ok (some frame), { t with saved := rest }) := by
        simp only [takeSaved, on_modifyGet, saved]
      rw [taken]
      rfl

theorem on_turn (axis : Axis) (sense : Sense) (t : Turtle α) :
    (turn axis sense).on t = settle t ((t.turn axis sense).map ((), ·)) := by
  rw [Turtle.turn_eq]
  cases axis with
  | tangent =>
      simp only [turn, on_bind, on_get, on_lift, goOn, Frame.turn]
      cases turnPair t.frame.normal t.frame.binormal (t.angle sense) <;> rfl
  | normal =>
      simp only [turn, on_bind, on_get, on_lift, goOn, Frame.turn]
      cases turnPair t.frame.tangent t.frame.binormal (t.angle sense) <;> rfl
  | binormal =>
      simp only [turn, on_bind, on_get, on_lift, goOn, Frame.turn]
      cases turnPair t.frame.tangent t.frame.normal (t.angle sense) <;> rfl

theorem on_forward (t : Turtle α) : forward.on t = settle t t.forward := by
  simp only [forward, on_bind, on_get, on_lift, goOn, Turtle.forward]
  cases tube t.frame.location t.ahead t.frame.normal t.frame.binormal t.style <;> rfl

/-- A command in place is a change that is made as a whole or not at all. -/
theorem on_execute (command : Command) (t : Turtle α) :
    (execute command).on t = settle t (t.execute command) := by
  cases command with
  | push => rfl
  | pop =>
      rw [execute, Turtle.execute, on_bind, on_pop]
      cases t.pop <;> rfl
  | turn axis sense =>
      rw [execute, Turtle.execute, on_bind, on_turn]
      cases t.turn axis sense <;> rfl
  | forward =>
      rw [execute, Turtle.execute, map_eq_pure_bind, on_bind, on_forward]
      cases t.forward <;> rfl

/-! ## Words -/

theorem on_drawNext (segments : Array (Mesh α)) (command : Command) (t : Turtle α) :
    (drawNext segments command).on t = settle t ((t.execute command).map fun (segment, next) =>
      (segments.appendList segment.toList, next)) := by
  rw [drawNext, on_bind, on_execute]
  rcases t.execute command with failure | ⟨_ | segment, next⟩ <;> rfl

theorem on_readBehind {d : Drawing α} (going : d.failure = none) (w : Word) :
    (readBehind d.segments w).on d.turtle = (d.after w).outcome := by
  induction w generalizing d with
  | nil =>
      rw [Drawing.after_nil, Drawing.outcome, Drawing.result, going]
      rfl
  | cons symbol w ih =>
      have stepped := d.step_spec symbol
      rw [Drawing.after_cons]
      generalize d.step symbol = next at stepped ⊢
      cases stepped with
      | halted failed =>
          rw [failed] at going
          cases going
      | ignored going unknown =>
          rw [readBehind, List.filterMap_cons_none unknown]
          exact ih going
      | done going known effect =>
          rw [readBehind, List.filterMap_cons_some known, List.foldlM_cons, bind_assoc, on_bind,
            on_drawNext, Turtle.execute_eq_ok_iff.mpr effect]
          exact ih (d := { d with turtle := _, segments := _ }) going
      | stopped going known fault =>
          rw [readBehind, List.filterMap_cons_some known, List.foldlM_cons, bind_assoc, on_bind,
            on_drawNext, Turtle.execute_eq_error_iff.mpr fault, Drawing.after_failed rfl]
          rfl

/-- A word in place is the word as it is drawn. -/
theorem on_read (w : Word) (t : Turtle α) : (read w).on t = (t.draw w).outcome :=
  on_readBehind (d := .start t) rfl w

/-! ## Failing -/

omit [Scalar α] in
/-- A change that is made as a whole or not at all leaves everything as it was when it fails. -/
theorem settle_eq_error_iff {t next : Turtle α} {change : Except (Failure α) (β × Turtle α)}
    {failure : Failure α} :
    settle t change = (.error failure, next) ↔ change = .error failure ∧ next = t := by
  rcases change with cause | ⟨b, after⟩ <;> simp [settle, eq_comm]

/-- A turtle gets through `u`, is then `mid`, and fails at the symbol behind. -/
structure BreaksOff (t : Turtle α) (u : Word) (mid : Turtle α) (symbol : Char)
    (failure : Failure α) : Prop where
  through : ∃ segments, (read u).on t = (.ok segments, mid)
  alone : ((read [symbol]).on mid).1 = .error failure

/-- Breaking off in place is stopping within the word as it is drawn. -/
theorem breaksOff_iff {t mid : Turtle α} {u : Word} {symbol : Char} {failure : Failure α} :
    BreaksOff t u mid symbol failure ↔
      t.StopsAt u symbol failure ∧ (t.draw u).turtle = mid := by
  constructor
  · rintro ⟨⟨segments, through⟩, alone⟩
    rw [on_read] at through alone
    obtain ⟨drawn, rfl⟩ := Prod.mk.inj through
    have going := (Drawing.result_eq_ok_iff.mp drawn).1
    have stuck : ((t.draw u).turtle.draw [symbol]).failure = some failure :=
      Drawing.result_eq_error_iff.mp alone
    refine ⟨⟨going, ?_⟩, rfl⟩
    rw [Turtle.draw_append, Drawing.after_eq_behind going]
    exact stuck
  · rintro ⟨stops, rfl⟩
    refine ⟨⟨(t.draw u).segments.toList, ?_⟩, ?_⟩
    · rw [on_read, Drawing.outcome, Drawing.result_eq_ok_iff.mpr ⟨stops.through, rfl⟩]
    · have stopped := stops.stopped
      rw [Turtle.draw_append, Drawing.after_eq_behind stops.through] at stopped
      rw [on_read]
      exact Drawing.result_eq_error_iff.mpr stopped

/-- Carried out in place, a command that fails leaves the turtle with the frame, the stack and the
settings that it had. A word that fails breaks off at one of its symbols, at no other, with the
failure of that symbol alone, and leaves the turtle as the symbols before it did. -/
theorem all_or_nothing (t : Turtle α) :
    (∀ command failure next, (execute command).on t = (.error failure, next) → next = t) ∧
      ∀ w failure last, (read w).on t = (.error failure, last) →
        ∃ u symbol v, w = u ++ symbol :: v ∧ BreaksOff t u last symbol failure ∧
          ∀ u' symbol' v' mid failure', w = u' ++ symbol' :: v' →
            BreaksOff t u' mid symbol' failure' → u' = u ∧ symbol' = symbol ∧ v' = v := by
  constructor
  · intro command failure next failed
    rw [on_execute] at failed
    exact (settle_eq_error_iff.mp failed).2
  · intro w failure last failed
    rw [on_read] at failed
    obtain ⟨broken, rfl⟩ := Prod.mk.inj failed
    obtain ⟨u, symbol, v, rfl, stops⟩ :=
      Turtle.exists_stopsAt (Drawing.result_eq_error_iff.mp broken)
    refine ⟨u, symbol, v, rfl, breaksOff_iff.mpr ⟨stops, ?_⟩, ?_⟩
    · rw [stops.draw_eq v]
    · intro u' symbol' v' mid failure' same other
      exact (breaksOff_iff.mp other).1.unique stops same.symm

/-- A word that goes back to both saved frames and asks for one more, and a pop where it broke off. -/
theorem climber_all_or_nothing :
    (read "F]]F]F".toList).on .climber =
        (.error .emptyStack, (Turtle.climber.draw "F]]F".toList).turtle) ∧
      (∃ u symbol v, "F]]F]F".toList = u ++ symbol :: v ∧
        BreaksOff .climber u (Turtle.climber.draw "F]]F".toList).turtle symbol .emptyStack) ∧
      (execute .pop).on (Turtle.climber.draw "F]]F".toList).turtle =
        (.error .emptyStack, (Turtle.climber.draw "F]]F".toList).turtle) := by
  have stops : Turtle.climber.StopsAt "F]]F".toList ']' .emptyStack := ⟨by decide, by decide⟩
  have split : "F]]F]F".toList = "F]]F".toList ++ ']' :: ['F'] := by decide
  have broken : (read "F]]F]F".toList).on .climber =
      (.error .emptyStack, (Turtle.climber.draw "F]]F".toList).turtle) := by
    rw [on_read, split, stops.draw_eq]
    rfl
  obtain ⟨u, symbol, v, same, breaks, _⟩ := (all_or_nothing .climber).2 _ _ _ broken
  have empty : (Turtle.climber.draw "F]]F".toList).turtle.saved = [] := by decide
  generalize (Turtle.climber.draw "F]]F".toList).turtle = last at *
  have stuck : (execute .pop).on last = (.error .emptyStack, ((execute .pop).on last).2) := by
    rw [on_execute, Turtle.execute_eq_error_iff.mpr (.pop empty)]
    rfl
  rw [(all_or_nothing last).1 _ _ _ stuck] at stuck
  exact ⟨broken, ⟨u, symbol, v, same, breaks⟩, stuck⟩

end InPlace

end Tendril
