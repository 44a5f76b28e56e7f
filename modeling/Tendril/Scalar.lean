/-!
# Scalars

The arithmetic in which points are placed. The class asks for operations and for no law: what is
stated of every scalar type holds of rounded arithmetic as it stands, and a statement that needs
exact roots or angles names the field it is read over. Programs run on `Float`.
-/

namespace Tendril

/-- Numbers with the operations that placing points on a curve needs. -/
class Scalar (α : Type) extends Add α, Sub α, Mul α, Div α, Neg α, BEq α where
  ofCount : Nat → α
  sqrt : α → α
  sin : α → α
  cos : α → α
  pi : α
  lt : α → α → Bool
  isFinite : α → Bool

namespace Scalar

variable {α : Type} [Scalar α]

/-- The number no length or sum can do without. -/
def zero : α := ofCount 0

def one : α := ofCount 1

def two : α := ofCount 2

/-- Radii, lengths and sizes are usable when they are positive and finite. -/
def isSize (x : α) : Bool := lt zero x && isFinite x

/-- A number that differs from itself stands for no number at all. -/
def isNaN (x : α) : Bool := x != x

/-- The lesser of two numbers; one that is no number gives way to the other. -/
def least (a b : α) : α := if isNaN a then b else if isNaN b then a else if lt b a then b else a

/-- The greater of two numbers; one that is no number gives way to the other. -/
def greatest (a b : α) : α := if isNaN a then b else if isNaN b then a else if lt a b then b else a

end Scalar

instance : Scalar Float where
  ofCount := Float.ofNat
  sqrt := Float.sqrt
  sin := Float.sin
  cos := Float.cos
  pi := 3.141592653589793
  lt a b := decide (a < b)
  isFinite := Float.isFinite

/-- Doubles closer than this count as one position. -/
def tolerance : Float := 1e-10

def near (a b : Float) : Bool := Float.abs (a - b) < tolerance

def nearZero (a : Float) : Bool := Float.abs a < tolerance

end Tendril
