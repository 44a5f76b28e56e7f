/-!
# Outlines

The shapes that a cross-section can have, and their names.
-/

namespace Tendril

/-- The shape of a cross-section. -/
inductive Outline where
  | circle
  | semiOval
  | square
  deriving DecidableEq, Repr

namespace Outline

/-- The name in data. -/
def name : Outline → String
  | .circle => "circle"
  | .semiOval => "semi_oval"
  | .square => "square"

/-- The name in sentences. -/
def title : Outline → String
  | .circle => "circle"
  | .semiOval => "semi-oval"
  | .square => "square"

def ofName? (name : String) : Option Outline :=
  [circle, semiOval, square].find? fun outline => outline.name = name

end Outline

end Tendril
