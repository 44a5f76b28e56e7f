import Tendril.Proofs.Turtle.Built
import Tendril.Proofs.Turtle.Pieces
import Tendril.Proofs.Turtle.Segments

/-!
# What comes of a word

A turtle that came about by its constructors and its commands has a style that can be drawn, so its
steps ahead never fail. As long as its turns can be made, a word fails for its brackets alone: when
some prefix closes more of them than it opens and the turtle has frames saved. Otherwise it comes to
one tube for each step ahead, in the order of the steps, and to the depth that its brackets say.
-/

namespace Tendril

variable {α : Type} [Scalar α]

namespace Turtle

/-- The turtles that come about: those made from a place and two directions, with standard settings
or given ones, and what becomes of them as settings are changed and commands are carried out. -/
inductive Reachable : Turtle α → Prop
  | make {location tangent normal : Vec3 α} {t : Turtle α}
      (made : Turtle.make location tangent normal = .ok t) : Reachable t
  | ofSettings {location tangent normal : Vec3 α} {settings : Settings α} {t : Turtle α}
      (made : Turtle.ofSettings location tangent normal settings = .ok t) : Reachable t
  | withTurnAngle {t next : Turtle α} {turnAngle : α} (reachable : Reachable t)
      (changed : t.withTurnAngle turnAngle = .ok next) : Reachable next
  | withBranchLength {t next : Turtle α} {branchLength : α} (reachable : Reachable t)
      (changed : t.withBranchLength branchLength = .ok next) : Reachable next
  | withStyle {t next : Turtle α} {style : TubeStyle α} (reachable : Reachable t)
      (changed : t.withStyle style = .ok next) : Reachable next
  | execute {t next : Turtle α} {command : Command} {segment : Option (Mesh α)}
      (reachable : Reachable t) (executed : t.execute command = .ok (segment, next)) :
      Reachable next

/-- No way to come by a turtle leads to a style that cannot be drawn, if the standard one can. -/
theorem Reachable.drawable_of_standard {t : Turtle α} (reachable : t.Reachable)
    (standard : (TubeStyle.standard : TubeStyle α).fault? = none) : t.style.fault? = none := by
  induction reachable with
  | make made =>
      obtain ⟨_, _, rfl⟩ := make_eq_ok_iff.mp made
      exact standard
  | ofSettings made => exact fault?_style_of_ofSettings made
  | withTurnAngle _ changed ih =>
      cases withTurnAngle_eq_ok changed
      exact ih
  | withBranchLength _ changed ih =>
      cases withBranchLength_eq_ok changed
      exact ih
  | withStyle _ changed _ =>
      have drawable := fault?_of_withStyle changed
      cases withStyle_eq_ok changed
      exact drawable
  | execute _ executed ih =>
      rw [(execute_eq_ok_iff.mp executed).settings.2.2]
      exact ih

theorem Reachable.drawable {t : Turtle Float} (reachable : t.Reachable) :
    t.style.fault? = none :=
  reachable.drawable_of_standard (by decide +kernel)

/-- Every turn of a word that the turtle comes to can be made. -/
def TurnsThrough (t : Turtle α) (w : Word) : Prop :=
  ∀ u symbol v axis sense, w = u ++ symbol :: v →
    Command.ofSymbol? symbol = some (.turn axis sense) → (t.draw u).failure = none →
      ∃ next, (t.draw u).turtle.turn axis sense = .ok next

/-- A turn that cannot be made is where its word breaks off. -/
theorem turnsThrough_iff {t : Turtle α} {w : Word} :
    t.TurnsThrough w ↔ (t.draw w).failure ≠ some .noDirection := by
  constructor
  · intro turns failed
    obtain ⟨u, symbol, v, rfl, stops⟩ := exists_stopsAt failed
    obtain ⟨command, known, fault⟩ := stops.fault
    cases fault with
    | turn degenerate =>
        obtain ⟨next, turned⟩ := turns u symbol v _ _ rfl known stops.through
        rw [turn_eq, degenerate] at turned
        cases turned
  · rintro unharmed u symbol v axis sense rfl known through
    rw [turn_eq]
    cases turned : (t.draw u).turtle.frame.turn axis ((t.draw u).turtle.angle sense) with
    | ok frame => exact ⟨_, rfl⟩
    | error failure =>
        obtain rfl := Frame.turn_eq_error turned
        have stops : t.StopsAt u symbol .noDirection := .of_fault through known (.turn turned)
        rw [stops.draw_eq v] at unharmed
        exact absurd rfl unharmed

/-- A word whose turns can be made fails for want of a saved frame or not at all. -/
theorem failure_of_turnsThrough {t : Turtle α} (drawable : t.style.fault? = none) {w : Word}
    (turns : t.TurnsThrough w) {failure : Failure α} (failed : (t.draw w).failure = some failure) :
    failure = .emptyStack := by
  obtain ⟨u, symbol, v, rfl, stops⟩ := exists_stopsAt failed
  obtain ⟨command, known, fault⟩ := stops.fault
  cases fault with
  | pop _ => rfl
  | turn _ => exact absurd failed (turnsThrough_iff.mp turns)
  | forward _ => exact absurd (Command.ofSymbol?_eq_some_iff.mp known) (stops.ne_stroke drawable)

/-- A word whose turns can be made fails exactly if it closes too many brackets. -/
theorem failure_eq_some_iff {t : Turtle α} (drawable : t.style.fault? = none) {w : Word}
    (turns : t.TurnsThrough w) {failure : Failure α} :
    (t.draw w).failure = some failure ↔ failure = .emptyStack ∧ Overcloses t.depth w := by
  constructor
  · intro failed
    obtain rfl := failure_of_turnsThrough drawable turns failed
    have nowhere := Drawing.depthAfter?_of_emptyStack (.start t) w rfl failed
    exact ⟨rfl, depthAfter?_eq_none_iff.mp nowhere⟩
  · rintro ⟨rfl, overclosed⟩
    cases failed : (t.draw w).failure with
    | some failure => rw [failure_of_turnsThrough drawable turns failed]
    | none =>
        have leads := depth_draw failed
        rw [depthAfter?_eq_none_iff.mpr overclosed] at leads
        cases leads

/-- The tube of a step ahead comes behind those of the steps before it. -/
theorem segment_of_stroke {t : Turtle α} {u v : Word}
    (through : (t.draw (u ++ 'F' :: v)).failure = none) :
    ∃ m, (t.draw (u ++ 'F' :: v)).segments.toList[u.count 'F']? = some m ∧
      tube (t.draw u).turtle.frame.location (t.draw u).turtle.ahead (t.draw u).turtle.frame.normal
        (t.draw u).turtle.frame.binormal t.style = .ok m := by
  have going := through_front through
  have before : (t.draw u).segments.toList.length = u.count 'F' :=
    (draw_segments (Drawing.result_eq_ok_iff.mpr ⟨going, rfl⟩)).1
  rw [draw_append] at through ⊢
  have ahead := Drawing.going_step through
  rw [Drawing.after_cons, Drawing.after_eq_behind ahead]
  have stepped := (t.draw u).step_spec 'F'
  generalize (t.draw u).step 'F' = next at stepped ahead ⊢
  cases stepped with
  | halted failed => cases going.symm.trans failed
  | ignored _ unknown => cases unknown
  | stopped _ _ _ => cases ahead
  | done _ known effect =>
      cases Option.some.inj known
      cases effect with
      | @forward m drawn =>
          rw [style_draw] at drawn
          exact ⟨m, by simp [Drawing.behind, ← before], drawn⟩

/-- What a word comes to that nothing stops. -/
structure Completes (t : Turtle α) (w : Word) (segments : List (Mesh α)) : Prop where
  result : (t.draw w).result = .ok segments
  length : segments.length = w.count 'F'
  -- The step ahead behind `u` is drawn from where `u` leads.
  tubes : ∀ u v, w = u ++ 'F' :: v → ∃ m, segments[u.count 'F']? = some m ∧
    tube (t.draw u).turtle.frame.location (t.draw u).turtle.ahead (t.draw u).turtle.frame.normal
      (t.draw u).turtle.frame.binormal t.style = .ok m
  tubular : 2 * t.style.resolution.toNat < 2 ^ 32 → ∀ m ∈ segments,
    m.vertexCount = 2 * t.style.resolution.toNat ∧ m.edgeCount = 3 * t.style.resolution.toNat ∧
      m.quadCount = t.style.resolution.toNat ∧ m.isValid = true
  depth : (t.draw w).turtle.depth + w.count ']' = t.depth + w.count '['

theorem completes {t : Turtle α} {w : Word} (through : (t.draw w).failure = none) :
    t.Completes w (t.draw w).segments.toList := by
  have result := Drawing.result_eq_ok_iff.mpr ⟨through, rfl⟩
  obtain ⟨length, drawn⟩ := draw_segments result
  obtain ⟨nested, depth⟩ := (depthAfter?_eq_some_iff ..).mp (depth_draw through)
  have whole := nested w (List.prefix_refl w)
  refine ⟨result, length, ?_, ?_, by omega⟩
  · rintro u v rfl
    exact segment_of_stroke through
  · intro few m member
    obtain ⟨points, edges, quads⟩ := (drawn m member).counts
    refine ⟨points, edges, quads, (drawn m member).isValid ?_⟩
    rw [points]
    exact few

/-- A word whose turns can be made fails exactly if some prefix closes more brackets than it opens
and the turtle has frames saved, and then for want of a frame. Otherwise it comes to one valid tube
for each step ahead, in their order, and to the depth that its brackets say. -/
theorem draw_outcome {t : Turtle Float} (reachable : t.Reachable) {w : Word}
    (turns : t.TurnsThrough w) :
    ((∃ failure, (t.draw w).result = .error failure) ↔ Overcloses t.depth w) ∧
      (Overcloses t.depth w → (t.draw w).result = .error .emptyStack) ∧
      (¬ Overcloses t.depth w → ∃ segments, t.Completes w segments) := by
  have fails : ∀ failure,
      (t.draw w).failure = some failure ↔ failure = .emptyStack ∧ Overcloses t.depth w := by
    intro failure
    exact failure_eq_some_iff reachable.drawable turns
  have stuck : Overcloses t.depth w → (t.draw w).result = .error .emptyStack := by
    intro overclosed
    exact Drawing.result_eq_error_iff.mpr ((fails _).mpr ⟨rfl, overclosed⟩)
  refine ⟨⟨?_, fun overclosed => ⟨_, stuck overclosed⟩⟩, stuck, ?_⟩
  · rintro ⟨failure, failed⟩
    exact ((fails failure).mp (Drawing.result_eq_error_iff.mp failed)).2
  · intro fits
    cases failed : (t.draw w).failure with
    | some failure => exact absurd ((fails failure).mp failed).2 fits
    | none => exact ⟨_, completes failed⟩

/-- A turtle with thin tubes that has saved nothing yet. -/
def sprout : Turtle Float where
  frame := ⟨⟨1, 2, 3⟩, .unitZ, .unitX, .unitY⟩
  saved := []
  turnAngle := defaultTurnAngle
  branchLength := defaultBranchLength
  style := ⟨0.25, 3⟩

/-- With one frame saved, the first word fails at a bracket that stands before its turn. -/
theorem sprout_draw_outcome :
    (sprout.push.Reachable ∧ sprout.push.TurnsThrough "F]F]+F".toList ∧
        sprout.push.TurnsThrough "[F]F]F".toList) ∧
      (sprout.push.draw "F]F]+F".toList).result = .error .emptyStack ∧
      ∃ segments, sprout.push.Completes "[F]F]F".toList segments := by
  have begun : (do (← Turtle.make ⟨1, 2, 3⟩ ⟨0, 0, 2⟩ ⟨3, 0, 0⟩).withStyle ⟨0.25, 3⟩) =
      .ok sprout := by decide +kernel
  obtain ⟨standard, made, styled⟩ := bind_eq_ok_iff.mp begun
  have saved : sprout.execute .push = .ok (none, sprout.push) := rfl
  have reachable : sprout.push.Reachable := .execute (.withStyle (.make made) styled) saved
  have stops : sprout.push.TurnsThrough "F]F]+F".toList := turnsThrough_iff.mpr (by decide)
  have goes : sprout.push.TurnsThrough "[F]F]F".toList := turnsThrough_iff.mpr (by decide)
  have overclosed : Overcloses sprout.push.depth "F]F]+F".toList :=
    ⟨"F]F]".toList, by decide, by decide⟩
  have fits : ¬ Overcloses sprout.push.depth "[F]F]F".toList := by
    rw [← depthAfter?_eq_none_iff]
    decide
  exact ⟨⟨reachable, stops, goes⟩, (draw_outcome reachable stops).2.1 overclosed,
    (draw_outcome reachable goes).2.2 fits⟩

end Turtle

end Tendril
