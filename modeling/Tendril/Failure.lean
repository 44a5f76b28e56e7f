import Tendril.Outline.Basic
import Tendril.Settings
import Tendril.Vector

/-!
# Failures

Why a run stops. A failure is a cause with the values that show it; its kind and its wording are
functions of the cause, kept here for every module.
-/

namespace Tendril

variable {α : Type}

/-- Something asked for that cannot be built. -/
inductive Misuse (α : Type) where
  /-- A rule with nothing to put in place of its symbol. -/
  | noOutputs (input : Char)
  | coarseOutline (outline : Outline) (resolution : Nat)
  /-- A blend of two profiles over no steps at all. -/
  | noBlendSteps
  | noIterations
  /-- A cross-section without points. -/
  | emptySection (iteration : Nat)
  | tubeRadius (given : α)
  | tubeResolution (given : Nat)
  | turnAngle (given : α)
  | branchLength (given : α)
  | boxSize (width height depth : α)
  /-- A cause that a host states in its own words. -/
  | stated (message : String)
  deriving DecidableEq

/-- Where two point lists of different lengths met. -/
inductive Junction where
  | blend
  | ring (iteration : Nat)
  | named (place : String)
  deriving DecidableEq

/-- Why a run stops. -/
inductive Failure (α : Type) where
  /-- A vector without a direction had to be normalized. -/
  | noDirection
  /-- A saved frame was asked for and none was left. -/
  | emptyStack
  | mismatch (junction : Junction) (expected found : Nat)
  | misuse (cause : Misuse α)
  | settings (fault : SettingFault α)
  deriving DecidableEq

namespace Misuse

/-- The cause as a sentence. -/
def message : Misuse Float → String
  | .noOutputs input => s!"production rule for '{input}' needs at least one output"
  | .coarseOutline outline resolution =>
      s!"{outline.title} profile needs at least {minRingSize} vertices, got {resolution}"
  | .noBlendSteps => "homotopy needs a positive step count"
  | .noIterations => "coiling axis needs max_iterations > 0"
  | .emptySection iteration => s!"generating shape is empty at iteration {iteration}"
  | .tubeRadius given => s!"branch radius must be positive, got {Layout.sentence.write given}"
  | .tubeResolution given =>
      s!"branch resolution must be at least {minRingSize}, got {given}"
  | .turnAngle given => s!"turn angle must be finite, got {Layout.sentence.write given}"
  | .branchLength given => s!"branch length must be positive, got {Layout.sentence.write given}"
  | .boxSize width height depth =>
      "Cuboid size must be positive: width=" ++ Layout.sentence.write width
        ++ ", height=" ++ Layout.sentence.write height ++ ", depth=" ++ Layout.sentence.write depth
  | .stated message => message

end Misuse

namespace Junction

def title : Junction → String
  | .blend => "homotopy"
  | .ring iteration => s!"sweep ring {iteration}"
  | .named place => place

end Junction

namespace Failure

/-- The kind of a failure, a word that hosts can tell failures apart by. -/
def kind : Failure α → String
  | .noDirection => "divide_by_zero"
  | .emptyStack => "empty_stack"
  | .mismatch .. => "index_mismatch"
  | .misuse _ => "configuration"
  | .settings _ => "configuration"

/-- The failure as a sentence. -/
def message : Failure Float → String
  | .noDirection => "Cannot normalize a zero-length vector"
  | .emptyStack => "Branch stack is empty: ']' has no matching '['"
  | .mismatch junction expected found =>
      s!"Index mismatch in {junction.title}: expected {expected} points, found {found}"
  | .misuse cause => s!"Configuration error: {cause.message}"
  | .settings fault => s!"Invalid configuration: {fault.message}"

end Failure

variable [Scalar α]

/-- The direction of a vector that a run cannot do without. -/
def Vec2.direction (a : Vec2 α) : Except (Failure α) (Vec2 α) :=
  a.normalize?.elim (.error .noDirection) .ok

/-- The part of `a` along `b`, for a run that cannot do without it. -/
def Vec2.projection (a b : Vec2 α) : Except (Failure α) (Vec2 α) :=
  (a.projectOn? b).elim (.error .noDirection) .ok

/-- The direction of a vector that a run cannot do without. -/
def Vec3.direction (a : Vec3 α) : Except (Failure α) (Vec3 α) :=
  a.normalize?.elim (.error .noDirection) .ok

/-- The part of `a` along `b`, for a run that cannot do without it. -/
def Vec3.projection (a b : Vec3 α) : Except (Failure α) (Vec3 α) :=
  (a.projectOn? b).elim (.error .noDirection) .ok

end Tendril
