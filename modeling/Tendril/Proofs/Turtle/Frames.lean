import Tendril.Proofs.Turtle.Journey

/-!
# What all frames keep

A turtle comes by its frames in three ways: it turns the one it has, moves on with it, or goes back
to one that it has saved. What turning and moving keep therefore holds of the frame of the turtle
and of all that are saved, whatever words it reads and wherever they break off.
-/

namespace Tendril

variable {α : Type} [Scalar α]

/-- A property that a frame keeps when it is turned or moved. -/
structure Frame.Keeps (P : Frame α → Prop) : Prop where
  moved : ∀ {f : Frame α} (location : Vec3 α), P f → P { f with location }
  turned : ∀ {f g : Frame α} {axis : Axis} {angle : α}, P f → f.turn axis angle = .ok g → P g

/-- All frames that a turtle has and has saved are of some kind. -/
def Turtle.AllFrames (t : Turtle α) (P : Frame α → Prop) : Prop := ∀ f ∈ t.frame :: t.saved, P f

namespace Frame.Keeps

variable {P : Frame α → Prop}

theorem effect (keeps : Keeps P) {t next : Turtle α} {command : Command}
    {segment : Option (Mesh α)} (all : t.AllFrames P) (effect : t.Effect command segment next) :
    next.AllFrames P := by
  obtain ⟨here, saved⟩ := List.forall_mem_cons.mp all
  cases effect with
  | push => exact List.forall_mem_cons.mpr ⟨here, all⟩
  | pop top =>
      rw [top] at saved
      exact saved
  | turn turned => exact List.forall_mem_cons.mpr ⟨keeps.turned here turned, saved⟩
  | forward _ => exact List.forall_mem_cons.mpr ⟨keeps.moved _ here, saved⟩

theorem step (keeps : Keeps P) {d : Drawing α} (all : d.turtle.AllFrames P) (symbol : Char) :
    (d.step symbol).turtle.AllFrames P := by
  have stepped := d.step_spec symbol
  generalize d.step symbol = next at stepped ⊢
  cases stepped with
  | halted _ => exact all
  | ignored _ _ => exact all
  | done _ _ effect => exact keeps.effect all effect
  | stopped _ _ _ => exact all

theorem after (keeps : Keeps P) {d : Drawing α} (all : d.turtle.AllFrames P) (w : Word) :
    (d.after w).turtle.AllFrames P := by
  induction w generalizing d with
  | nil => exact all
  | cons symbol w ih => exact ih (keeps.step all symbol)

theorem readAll (keeps : Keeps P) {j : Journey α} (all : j.turtle.AllFrames P)
    (words : List Word) : (words.foldl Journey.read j).turtle.AllFrames P := by
  induction words generalizing j with
  | nil => exact all
  | cons w words ih => exact ih (keeps.after (d := .start j.turtle) all w)

/-- A turtle that starts with a frame of some kind has no other frames on any journey. -/
theorem journey (keeps : Keeps P) {location tangent normal : Vec3 α} {t : Turtle α}
    (built : Turtle.Built location tangent normal t) (here : P t.frame) (words : List Word) :
    (t.journey words).turtle.AllFrames P := by
  refine keeps.readAll (j := ⟨t, [], []⟩) ?_ words
  rw [Turtle.AllFrames, built.fresh.1]
  exact List.forall_mem_singleton.mpr here

end Frame.Keeps

end Tendril
