import Tendril.Grammar.Rule
import Tendril.Turtle.Command
import Tendril.Turtle.Tube

/-!
# Turtles

A turtle is a frame that commands move, with a stack of frames to come back to. A command that fails
leaves no turtle behind: whoever runs it keeps the one there was. A word is drawn symbol by symbol
until one fails, and the drawing keeps what came before.
-/

namespace Tendril

open Scalar

variable {α : Type} [Scalar α]

/-- A moving frame, the frames saved on the way (the latest first), and how to move and draw. -/
structure Turtle (α : Type) where
  frame : Frame α
  saved : List (Frame α)
  turnAngle : α
  branchLength : α
  style : TubeStyle α
  deriving DecidableEq

namespace Turtle

/-- A turtle with standard settings. The directions are taken as they are, square or skewed. -/
def make (location tangent normal : Vec3 α) : Except (Failure α) (Turtle α) := do
  let frame ← Frame.make location tangent normal
  return {
    frame
    saved := []
    turnAngle := defaultTurnAngle
    branchLength := defaultBranchLength
    style := .standard }

def withTurnAngle (t : Turtle α) (turnAngle : α) : Except (Failure α) (Turtle α) :=
  if isFinite turnAngle then .ok { t with turnAngle }
  else .error (.misuse (.turnAngle turnAngle))

def withBranchLength (t : Turtle α) (branchLength : α) : Except (Failure α) (Turtle α) :=
  if isSize branchLength then .ok { t with branchLength }
  else .error (.misuse (.branchLength branchLength))

def withStyle (t : Turtle α) (style : TubeStyle α) : Except (Failure α) (Turtle α) :=
  match style.fault? with
  | some cause => .error (.misuse cause)
  | none => .ok { t with style }

/-- A turtle with the given settings, which are looked at before the directions are. -/
def ofSettings (location tangent normal : Vec3 α) (settings : Settings α) :
    Except (Failure α) (Turtle α) := do
  match settings.fault? with
  | some fault => throw (.settings fault)
  | none =>
      let t ← make location tangent normal
      let t ← t.withTurnAngle settings.turnAngle
      let t ← t.withBranchLength settings.branchLength
      t.withStyle ⟨settings.branchRadius, settings.branchResolution⟩

/-- How many frames are saved. -/
def depth (t : Turtle α) : Nat := t.saved.length

def push (t : Turtle α) : Turtle α := { t with saved := t.frame :: t.saved }

def pop (t : Turtle α) : Except (Failure α) (Turtle α) :=
  match t.saved with
  | [] => .error .emptyStack
  | frame :: saved => .ok { t with frame, saved }

def turn (t : Turtle α) (axis : Axis) (sense : Sense) : Except (Failure α) (Turtle α) := do
  let angle := match sense with
    | .positive => t.turnAngle
    | .negative => -t.turnAngle
  let frame ← t.frame.turn axis angle
  return { t with frame }

/-- The place one step ahead. -/
def ahead (t : Turtle α) : Vec3 α := t.frame.location + t.branchLength • t.frame.tangent

/-- Draws a tube to the place one step ahead and goes there. -/
def forward (t : Turtle α) : Except (Failure α) (Mesh α × Turtle α) := do
  let segment ← tube t.frame.location t.ahead t.frame.normal t.frame.binormal t.style
  return (segment, { t with frame := { t.frame with location := t.ahead } })

/-- Carries out a command: what it drew, if it draws, and the turtle afterwards. -/
def execute (t : Turtle α) : Command → Except (Failure α) (Option (Mesh α) × Turtle α)
  | .push => .ok (none, t.push)
  | .pop => do return (none, ← t.pop)
  | .turn axis sense => do return (none, ← t.turn axis sense)
  | .forward => do
      let (segment, t) ← t.forward
      return (some segment, t)

end Turtle

/-- What a word has come to so far: the segments drawn, where the turtle is, and what stopped it. -/
structure Drawing (α : Type) where
  turtle : Turtle α
  segments : Array (Mesh α)
  failure : Option (Failure α)

namespace Drawing

/-- The drawing of no symbols. -/
def start (t : Turtle α) : Drawing α := ⟨t, #[], none⟩

/-- Goes on with a symbol, unless an earlier one has failed. -/
def step (d : Drawing α) (symbol : Char) : Drawing α :=
  match d.failure, Command.ofSymbol? symbol with
  | none, some command =>
      match d.turtle.execute command with
      | .error failure => { d with failure }
      | .ok (segment, turtle) =>
          { d with turtle, segments := d.segments.appendList segment.toList }
  | _, _ => d

/-- The segments, if no symbol failed. -/
def result (d : Drawing α) : Except (Failure α) (List (Mesh α)) :=
  match d.failure with
  | some failure => .error failure
  | none => .ok d.segments.toList

end Drawing

namespace Turtle

/-- Draws a word. -/
def draw (t : Turtle α) (w : Word) : Drawing α := w.foldl Drawing.step (.start t)

/-- Draws a word as a single mesh. -/
def drawMerged (t : Turtle α) (w : Word) : Except (Failure α) (Mesh α) × Turtle α :=
  let d := t.draw w
  (d.result.map Mesh.mergeAll, d.turtle)

end Turtle

end Tendril
