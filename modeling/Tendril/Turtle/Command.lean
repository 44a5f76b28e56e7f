import Tendril.Turtle.Frame

/-!
# Commands

The alphabet of a drawing. A word may hold any symbols; those that are not in the alphabet are
passed over.
-/

namespace Tendril

/-- Which way to turn. -/
inductive Sense where
  | positive
  | negative
  deriving DecidableEq, Repr

/-- What a symbol asks for. -/
inductive Command where
  /-- Save the frame. -/
  | push
  /-- Go back to the frame saved last. -/
  | pop
  | turn (axis : Axis) (sense : Sense)
  /-- Move ahead and draw a tube. -/
  | forward
  deriving DecidableEq, Repr

namespace Command

/-- The command that a symbol stands for. -/
def ofSymbol? : Char → Option Command
  | '[' => some .push
  | ']' => some .pop
  | '+' => some (.turn .tangent .positive)
  | '-' => some (.turn .tangent .negative)
  | '&' => some (.turn .normal .positive)
  | '^' => some (.turn .normal .negative)
  | '\\' => some (.turn .binormal .positive)
  | '/' => some (.turn .binormal .negative)
  | 'F' => some .forward
  | _ => none

end Command

end Tendril
