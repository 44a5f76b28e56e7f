import Tendril.Proofs.Mesh.Parts
import Tendril.Proofs.Turtle.Stack

/-!
# Words in pieces

A word may be drawn in pieces, cut wherever one likes, brackets or not: what a turtle has saved it
keeps between the pieces. Symbols that stand for no command may be left out. And because joining
meshes is associative, the mesh of a word is that of its front joined with that of the rest.
-/

namespace Tendril

variable {α β γ : Type}

/-- Goes on with the turtle that a run leaves, unless the run has failed. -/
def goOn (run : Except (Failure α) β × Turtle α)
    (next : β → Turtle α → Except (Failure α) γ × Turtle α) : Except (Failure α) γ × Turtle α :=
  match run with
  | (.ok b, t) => next b t
  | (.error failure, t) => (.error failure, t)

namespace Command

/-- The symbols that stand for a command. -/
def alphabet : List Char := ['[', ']', '+', '-', '&', '^', '\\', '/', 'F']

theorem symbol_mem_alphabet (command : Command) : command.symbol ∈ alphabet := by
  cases command with
  | turn axis sense => cases axis <;> cases sense <;> decide
  | _ => decide

/-- Symbols outside the alphabet stand for nothing. -/
theorem ofSymbol?_of_not_mem {symbol : Char} (foreign : symbol ∉ alphabet) :
    ofSymbol? symbol = none := by
  cases known : ofSymbol? symbol with
  | none => rfl
  | some command =>
      rw [ofSymbol?_eq_some_iff.mp known] at foreign
      exact absurd command.symbol_mem_alphabet foreign

end Command

namespace Drawing

/-- What a drawing has come to: the segments or the failure, and the turtle either way. -/
def outcome (d : Drawing α) : Except (Failure α) (List (Mesh α)) × Turtle α := (d.result, d.turtle)

/-- The drawing with segments in front of its own. -/
def behind (d : Drawing α) (front : Array (Mesh α)) : Drawing α :=
  { d with segments := front ++ d.segments }

theorem result_behind (d : Drawing α) (front : Array (Mesh α)) :
    (d.behind front).result = d.result.map (front.toList ++ ·) := by
  unfold result behind
  cases d.failure with
  | none => exact congrArg Except.ok Array.toList_append
  | some failure => rfl

variable [Scalar α]

theorem Step.behind {d next : Drawing α} {symbol : Char} (stepped : d.Step symbol next)
    (front : Array (Mesh α)) : (d.behind front).Step symbol (next.behind front) := by
  cases stepped with
  | halted failed => exact .halted failed
  | ignored going unknown => exact .ignored going unknown
  | @done command segment turtle going known effect =>
      have added : (d.behind front).segments.appendList segment.toList =
          front ++ d.segments.appendList segment.toList :=
        Array.toList_inj.mp (by simp [Drawing.behind])
      have stepped := Step.done (d := d.behind front) going known effect
      rw [added] at stepped
      exact stepped
  | stopped going known fault => exact .stopped going known fault

/-- No symbol looks at the segments that are drawn already. -/
theorem after_behind (d : Drawing α) (front : Array (Mesh α)) (w : Word) :
    (d.behind front).after w = (d.after w).behind front := by
  induction w generalizing d with
  | nil => rfl
  | cons symbol w ih =>
      rw [after_cons, after_cons, ((step_spec d symbol).behind front).step_eq]
      exact ih (d.step symbol)

/-- A drawing goes on as its turtle would draw by itself, behind the segments that it has. -/
theorem after_eq_behind {d : Drawing α} (going : d.failure = none) (w : Word) :
    d.after w = (d.turtle.draw w).behind d.segments := by
  have same : d = (start d.turtle).behind d.segments := by
    cases d
    cases going
    simp [start, Drawing.behind]
  conv_lhs => rw [same]
  exact after_behind (start d.turtle) d.segments w

/-- Symbols that stand for no command can be left out. -/
theorem after_filter (d : Drawing α) (w : Word) :
    d.after (w.filter (· ∈ Command.alphabet)) = d.after w := by
  induction w generalizing d with
  | nil => rfl
  | cons symbol w ih =>
      by_cases native : symbol ∈ Command.alphabet
      · rw [List.filter_cons_of_pos (by simpa using native)]
        exact ih (d.step symbol)
      · have passed : d.step symbol = d := by
          cases going : d.failure with
          | none => exact (Step.ignored going (Command.ofSymbol?_of_not_mem native)).step_eq
          | some failure => exact (Step.halted going).step_eq
        rw [List.filter_cons_of_neg (by simpa using native), after_cons, passed]
        exact ih d

end Drawing

namespace Turtle

variable [Scalar α]

theorem draw_append (t : Turtle α) (u v : Word) : t.draw (u ++ v) = (t.draw u).after v :=
  Drawing.after_append (.start t) u v

/-- A turtle that gets through a word gets through its front. -/
theorem through_front {t : Turtle α} {u v : Word} (through : (t.draw (u ++ v)).failure = none) :
    (t.draw u).failure = none := by
  cases failed : (t.draw u).failure with
  | none => rfl
  | some failure =>
      rw [draw_append, Drawing.after_failed failed, failed] at through
      cases through

/-! ## Where a word breaks off -/

/-- A turtle gets through `u` and fails at the symbol behind it. -/
structure StopsAt (t : Turtle α) (u : Word) (symbol : Char) (failure : Failure α) : Prop where
  through : (t.draw u).failure = none
  stopped : (t.draw (u ++ [symbol])).failure = some failure

namespace StopsAt

variable {t : Turtle α} {u v u' v' : Word} {symbol symbol' : Char} {failure failure' : Failure α}

/-- The symbol that a word stops at stands for a command that fails. -/
theorem fault (stops : t.StopsAt u symbol failure) :
    ∃ command, Command.ofSymbol? symbol = some command ∧
      (t.draw u).turtle.Fault command failure := by
  have stopped := stops.stopped
  rw [draw_append, Drawing.after_cons, Drawing.after_nil] at stopped
  have stepped := (t.draw u).step_spec symbol
  generalize (t.draw u).step symbol = next at stepped stopped
  cases stepped with
  | halted failed => cases stops.through.symm.trans failed
  | ignored _ _ => cases stops.through.symm.trans stopped
  | done _ _ _ => cases stops.through.symm.trans stopped
  | stopped _ known fault =>
      cases stopped
      exact ⟨_, known, fault⟩

theorem of_fault {command : Command} (through : (t.draw u).failure = none)
    (known : Command.ofSymbol? symbol = some command)
    (fault : (t.draw u).turtle.Fault command failure) : t.StopsAt u symbol failure := by
  refine ⟨through, ?_⟩
  rw [draw_append, Drawing.after_cons, Drawing.after_nil,
    (Drawing.Step.stopped through known fault).step_eq]

/-- Steps ahead in a drawable style are no reason to break off. -/
theorem ne_stroke (stops : t.StopsAt u symbol failure) (drawable : t.style.fault? = none) :
    symbol ≠ 'F' := by
  rintro rfl
  obtain ⟨command, known, fault⟩ := stops.fault
  cases Option.some.inj known
  cases fault with
  | forward undrawable =>
      rw [style_draw, drawable] at undrawable
      cases undrawable

/-- Whatever else follows is not drawn, and the turtle stays where the symbols before it led. -/
theorem draw_eq (stops : t.StopsAt u symbol failure) (v : Word) :
    t.draw (u ++ symbol :: v) = { t.draw u with failure := some failure } := by
  obtain ⟨command, known, fault⟩ := stops.fault
  rw [draw_append, Drawing.after_cons, (Drawing.Step.stopped stops.through known fault).step_eq,
    Drawing.after_failed rfl]

/-- A word breaks off at one place only. -/
theorem unique (here : t.StopsAt u symbol failure) (there : t.StopsAt u' symbol' failure')
    (same : u ++ symbol :: v = u' ++ symbol' :: v') : u = u' ∧ symbol = symbol' ∧ v = v' := by
  rcases List.append_eq_append_iff.mp same with ⟨rest, rfl, behind⟩ | ⟨rest, rfl, behind⟩
  · cases rest with
    | nil =>
        cases behind
        exact ⟨(List.append_nil u).symm, rfl, rfl⟩
    | cons first rest =>
        -- The longer front would have to get through the symbol that the shorter one stops at.
        cases behind
        have through := there.through
        rw [here.draw_eq rest] at through
        cases through
  · cases rest with
    | nil =>
        cases behind
        exact ⟨List.append_nil u', rfl, rfl⟩
    | cons first rest =>
        cases behind
        have through := here.through
        rw [there.draw_eq rest] at through
        cases through

end StopsAt

/-- A word that fails breaks off at one of its symbols. -/
theorem exists_stopsAt {t : Turtle α} {w : Word} {failure : Failure α}
    (failed : (t.draw w).failure = some failure) :
    ∃ u symbol v, w = u ++ symbol :: v ∧ t.StopsAt u symbol failure := by
  induction w using List.reverseRecOn with
  | nil => cases failed
  | append_singleton w last ih =>
      cases reached : (t.draw w).failure with
      | none => exact ⟨w, last, [], rfl, reached, failed⟩
      | some earlier =>
          rw [draw_append, Drawing.after_failed reached] at failed
          obtain ⟨u, symbol, v, rfl, stops⟩ := ih failed
          exact ⟨u, symbol, v ++ [last], by simp, stops⟩

/-! ## Drawing the pieces -/

/-- The outcome of a word that is drawn in two pieces. -/
theorem outcome_draw_append (t : Turtle α) (u v : Word) :
    (t.draw (u ++ v)).outcome = goOn (t.draw u).outcome fun front mid =>
      ((mid.draw v).result.map (front ++ ·), (mid.draw v).turtle) := by
  rw [draw_append]
  cases reached : (t.draw u).failure with
  | some failure =>
      rw [Drawing.after_failed reached]
      simp only [Drawing.outcome, Drawing.result, reached, goOn]
  | none =>
      rw [Drawing.after_eq_behind reached]
      simp only [Drawing.outcome, Drawing.result_behind, goOn]
      simp only [Drawing.result, reached]
      rfl

/-- Merging is done once the segments are there, and leaves the turtle alone. -/
theorem drawMerged_eq (t : Turtle α) (w : Word) :
    t.drawMerged w = goOn (t.draw w).outcome fun segments last =>
      (.ok (Mesh.mergeAll segments), last) := by
  simp only [drawMerged, Drawing.outcome, goOn]
  cases (t.draw w).result <;> rfl

/-- A word that is cut anywhere comes to what its pieces come to when they are drawn one after the
other: to the first failure that there is or to all segments in order, and to the same turtle. The
symbols that stand for no command have no part in it. Drawn as a single mesh, the pieces come to the
mesh of the first joined with that of the second. -/
theorem draw_in_pieces (t : Turtle α) :
    (∀ u v : Word, (t.draw (u ++ v)).outcome = goOn (t.draw u).outcome fun front mid =>
        ((mid.draw v).result.map (front ++ ·), (mid.draw v).turtle)) ∧
      (∀ w : Word, t.draw (w.filter (· ∈ Command.alphabet)) = t.draw w) ∧
      ∀ u v : Word, t.drawMerged (u ++ v) = goOn (t.drawMerged u) fun front mid =>
        ((mid.drawMerged v).1.map front.merge, (mid.drawMerged v).2) := by
  refine ⟨t.outcome_draw_append, fun w => Drawing.after_filter (.start t) w, fun u v => ?_⟩
  rw [drawMerged_eq, outcome_draw_append, drawMerged_eq]
  simp only [Drawing.outcome]
  cases (t.draw u).result with
  | error failure => rfl
  | ok front =>
      simp only [goOn, drawMerged]
      cases ((t.draw u).turtle.draw v).result with
      | error failure => rfl
      | ok behind => exact congrArg (fun m => (Except.ok m, _)) (Mesh.mergeAll_append front behind)

end Turtle

end Tendril
