import Mathlib.Data.List.Forall2
import Tendril.Proofs.Turtle.Built
import Tendril.Proofs.Turtle.Effect
import Tendril.Proofs.Turtle.Tube

/-!
# Journeys

A journey is what comes of a turtle that reads word after word, going on from wherever the last one
left it, be it in the middle after a failure. Alongside it stand the strokes, the places between
which tubes are asked for. The drawing holds together: every stroke starts at the place where the
turtle was put or where an earlier stroke ends, and so does everything that the turtle may come back
to. Places are passed on and never computed anew, so the law needs nothing of the arithmetic.
-/

namespace Tendril

variable {α : Type}

/-- A tube as it is asked for: where it starts and where it ends. -/
structure Stroke (α : Type) where
  start : Vec3 α
  finish : Vec3 α

/-- A place is reached when it is the first one or the end of a stroke. -/
def Reached (location : Vec3 α) (strokes : List (Stroke α)) (p : Vec3 α) : Prop :=
  p = location ∨ ∃ s ∈ strokes, p = s.finish

theorem Reached.append {location p : Vec3 α} {strokes : List (Stroke α)}
    (reached : Reached location strokes p) (later : List (Stroke α)) :
    Reached location (strokes ++ later) p := by
  rcases reached with first | ⟨s, member, ends⟩
  · exact .inl first
  · exact .inr ⟨s, List.mem_append_left _ member, ends⟩

/-- A turtle that has read some words, with the strokes it asked for and the tubes they became, both
in the order in which they were drawn. -/
structure Journey (α : Type) where
  turtle : Turtle α
  strokes : List (Stroke α)
  segments : List (Mesh α)

variable [Scalar α]

namespace Drawing

/-- The stroke that a symbol asks for. A drawing that has failed asks for none, nor does a turtle
whose style cannot be drawn. -/
def stroke? (d : Drawing α) (symbol : Char) : Option (Stroke α) :=
  match d.failure, Command.ofSymbol? symbol, d.turtle.style.fault? with
  | none, some .forward, none => some ⟨d.turtle.frame.location, d.turtle.ahead⟩
  | _, _, _ => none

/-- The strokes that a word asks for. -/
def strokes (d : Drawing α) : Word → List (Stroke α)
  | [] => []
  | symbol :: w => (d.stroke? symbol).toList ++ (d.step symbol).strokes w

end Drawing

namespace Journey

/-- Goes on with another word. -/
def read (j : Journey α) (w : Word) : Journey α where
  turtle := (j.turtle.draw w).turtle
  strokes := j.strokes ++ (Drawing.start j.turtle).strokes w
  segments := j.segments ++ (j.turtle.draw w).segments.toList

end Journey

/-- The journey of a turtle through some words. A moment within a word is the end of the journey
whose last word breaks off there. -/
def Turtle.journey (t : Turtle α) (words : List Word) : Journey α :=
  words.foldl Journey.read ⟨t, [], []⟩

/-- A drawing that holds together: strokes start at places reached before, the turtle can only come
back to places reached, and the segments are the tubes of the strokes, one each. -/
structure Connected (location : Vec3 α) (style : TubeStyle α) (j : Journey α) : Prop where
  linked : ∀ i (inside : i < j.strokes.length),
    Reached location (j.strokes.take i) j.strokes[i].start
  frames : ∀ f ∈ j.turtle.frame :: j.turtle.saved, Reached location j.strokes f.location
  drawn : List.Forall₂ (fun stroke segment => ∃ normal binormal,
    tube stroke.start stroke.finish normal binormal style = .ok segment) j.strokes j.segments
  styled : j.turtle.style = style

/-- A command that draws nothing takes the turtle to no new place. -/
theorem Turtle.Effect.places {t next : Turtle α} {command : Command}
    (effect : t.Effect command none next) :
    ∀ f ∈ next.frame :: next.saved, ∃ g ∈ t.frame :: t.saved, f.location = g.location := by
  intro f member
  cases effect with
  | push =>
      rcases List.mem_cons.mp member with rfl | saved
      · exact ⟨t.frame, List.mem_cons_self, rfl⟩
      · exact ⟨f, saved, rfl⟩
  | pop top =>
      rw [← top] at member
      exact ⟨f, List.mem_cons_of_mem _ member, rfl⟩
  | turn turned =>
      rcases List.mem_cons.mp member with rfl | saved
      · exact ⟨t.frame, List.mem_cons_self, Frame.turn_location turned⟩
      · exact ⟨f, List.mem_cons_of_mem _ saved, rfl⟩

namespace Connected

variable {location : Vec3 α} {style : TubeStyle α} {j : Journey α}

/-- The turtle may go on without drawing, as long as it does so from a place it can come back to. -/
theorem move (connected : Connected location style j) {next : Turtle α}
    (places : ∀ f ∈ next.frame :: next.saved,
      ∃ g ∈ j.turtle.frame :: j.turtle.saved, f.location = g.location)
    (styled : next.style = j.turtle.style) :
    Connected location style { j with turtle := next } where
  linked := connected.linked
  frames := by
    intro f member
    obtain ⟨g, known, same⟩ := places f member
    rw [same]
    exact connected.frames g known
  drawn := connected.drawn
  styled := styled.trans connected.styled

/-- One more stroke from where the turtle stands reaches one more place. -/
theorem extend (connected : Connected location style j) {finish : Vec3 α} {segment : Mesh α}
    (drawn : tube j.turtle.frame.location finish j.turtle.frame.normal j.turtle.frame.binormal
      j.turtle.style = .ok segment) :
    Connected location style
      { turtle := { j.turtle with frame := { j.turtle.frame with location := finish } }
        strokes := j.strokes ++ [⟨j.turtle.frame.location, finish⟩]
        segments := j.segments ++ [segment] } where
  linked := by
    intro i inside
    have here := connected.frames j.turtle.frame List.mem_cons_self
    rw [List.length_append, List.length_singleton] at inside
    -- Earlier strokes have the same strokes before them, and the last starts at the turtle.
    by_cases earlier : i < j.strokes.length
    · simp only [List.getElem_append_left earlier,
        List.take_append_of_le_length (Nat.le_of_lt earlier)]
      exact connected.linked i earlier
    · have last : i = j.strokes.length := by omega
      subst last
      simpa using here
  frames := by
    intro f member
    rcases List.mem_cons.mp member with rfl | saved
    · exact .inr ⟨⟨j.turtle.frame.location, finish⟩, by simp, rfl⟩
    · exact (connected.frames f (List.mem_cons_of_mem _ saved)).append _
  drawn := by
    rw [connected.styled] at drawn
    exact List.rel_append connected.drawn (.cons ⟨_, _, drawn⟩ .nil)
  styled := connected.styled

/-- A symbol keeps a drawing together, with the stroke that it asks for. -/
theorem step {d : Drawing α} {strokes : List (Stroke α)} {segments : List (Mesh α)}
    (connected : Connected location style ⟨d.turtle, strokes, segments ++ d.segments.toList⟩)
    (symbol : Char) :
    Connected location style ⟨(d.step symbol).turtle, strokes ++ (d.stroke? symbol).toList,
      segments ++ (d.step symbol).segments.toList⟩ := by
  have stepped := d.step_spec symbol
  generalize d.step symbol = next at stepped ⊢
  cases stepped with
  | halted failed => simpa [Drawing.stroke?, failed] using connected
  | ignored going unknown => simpa [Drawing.stroke?, going, unknown] using connected
  | @done command segment turtle going known effect =>
      cases segment with
      | none =>
          have silent : d.stroke? symbol = none := by
            cases effect <;> simp [Drawing.stroke?, going, known]
          have moved := connected.move effect.places effect.settings.2.2
          simpa [silent] using moved
      | some segment =>
          cases effect with
          | forward drawn =>
              have asked :
                  d.stroke? symbol = some ⟨d.turtle.frame.location, d.turtle.ahead⟩ := by
                simp [Drawing.stroke?, going, known, (tube_eq_ok_iff.mp drawn).1]
              simpa [asked] using connected.extend drawn
  | stopped going known fault =>
      have silent : d.stroke? symbol = none := by
        cases fault with
        | pop _ => simp [Drawing.stroke?, going, known]
        | turn _ => simp [Drawing.stroke?, going, known]
        | forward undrawable => simp [Drawing.stroke?, going, known, undrawable]
      simpa [silent] using connected

/-- A word keeps a drawing together, with the strokes that it asks for. -/
theorem after {d : Drawing α} {strokes : List (Stroke α)} {segments : List (Mesh α)}
    (connected : Connected location style ⟨d.turtle, strokes, segments ++ d.segments.toList⟩)
    (w : Word) :
    Connected location style ⟨(d.after w).turtle, strokes ++ d.strokes w,
      segments ++ (d.after w).segments.toList⟩ := by
  induction w generalizing d strokes with
  | nil => simpa [Drawing.strokes] using connected
  | cons symbol w ih =>
      have later := ih (connected.step symbol)
      rw [List.append_assoc] at later
      exact later

theorem read (connected : Connected location style j) (w : Word) :
    Connected location style (j.read w) := by
  have started : Connected location style ⟨(Drawing.start j.turtle).turtle, j.strokes,
      j.segments ++ (Drawing.start j.turtle).segments.toList⟩ := by
    simpa [Drawing.start] using connected
  exact started.after w

/-- Any number of words keep a drawing together. -/
theorem readAll (connected : Connected location style j) (words : List Word) :
    Connected location style (words.foldl Journey.read j) := by
  induction words generalizing j with
  | nil => exact connected
  | cons w words ih => exact ih (connected.read w)

end Connected

namespace Turtle

/-- Every tube that a new turtle draws starts at the place where the turtle was put or where an
earlier tube ends, and at every moment the turtle stands, and has saved frames, at such places only.
The tubes that it draws are those of its strokes. -/
theorem journey_connected {location tangent normal : Vec3 α} {t : Turtle α}
    (built : Built location tangent normal t) (words : List Word) :
    (∀ i (inside : i < (t.journey words).strokes.length),
        Reached location ((t.journey words).strokes.take i) (t.journey words).strokes[i].start) ∧
      (∀ f ∈ (t.journey words).turtle.frame :: (t.journey words).turtle.saved,
        Reached location (t.journey words).strokes f.location) ∧
      List.Forall₂ (fun stroke segment => ∃ normal binormal,
          tube stroke.start stroke.finish normal binormal t.style = .ok segment)
        (t.journey words).strokes (t.journey words).segments := by
  obtain ⟨bare, placed⟩ := built.fresh
  have start : Connected location t.style ⟨t, [], []⟩ := by
    refine ⟨fun i inside => absurd inside (Nat.not_lt_zero i), ?_, .nil, rfl⟩
    intro f member
    rw [bare, List.mem_singleton] at member
    rw [member]
    exact .inl placed
  have connected := start.readAll words
  exact ⟨connected.linked, connected.frames, connected.drawn⟩

/-- A turtle with standard settings that looks along two directions of other lengths than one. -/
def newcomer : Turtle Float :=
  ⟨⟨⟨1, 2, 3⟩, .unitZ, .unitX, .unitY⟩, [], defaultTurnAngle, defaultBranchLength, .standard⟩

theorem newcomer_journey_connected :
    Turtle.make ⟨1, 2, 3⟩ ⟨0, 0, 2⟩ ⟨3, 0, 0⟩ = .ok newcomer ∧
      (newcomer.journey ["F[F[F".toList, "]F]]F".toList, "F".toList]).strokes.length = 5 ∧
      ∀ f ∈ (newcomer.journey ["F[F[F".toList, "]F]]F".toList, "F".toList]).turtle.frame ::
          (newcomer.journey ["F[F[F".toList, "]F]]F".toList, "F".toList]).turtle.saved,
        Reached ⟨1, 2, 3⟩ (newcomer.journey ["F[F[F".toList, "]F]]F".toList, "F".toList]).strokes
          f.location := by
  have made : Turtle.make ⟨1, 2, 3⟩ ⟨0, 0, 2⟩ ⟨3, 0, 0⟩ = .ok newcomer := by decide +kernel
  have connected := journey_connected (.make made) ["F[F[F".toList, "]F]]F".toList, "F".toList]
  exact ⟨made, by decide, connected.2.1⟩

end Turtle

end Tendril
