import Tendril.Scalar

/-!
# Vectors

Points and directions in the plane and in space. Sums of products are taken from left to right,
so that a result is the same whichever module asks for it. A vector has a direction only when its
length is neither zero nor infinite: `normalize?` answers `none` otherwise and never divides.
-/

namespace Tendril

open Scalar

variable {α : Type}

structure Vec2 (α : Type) where
  x : α
  y : α
  deriving BEq, DecidableEq

structure Vec3 (α : Type) where
  x : α
  y : α
  z : α
  deriving BEq, DecidableEq

namespace Vec2

variable [Scalar α]

instance : Add (Vec2 α) := ⟨fun a b => ⟨a.x + b.x, a.y + b.y⟩⟩
instance : Sub (Vec2 α) := ⟨fun a b => ⟨a.x - b.x, a.y - b.y⟩⟩
instance : Neg (Vec2 α) := ⟨fun a => ⟨-a.x, -a.y⟩⟩
instance : SMul α (Vec2 α) := ⟨fun k a => ⟨k * a.x, k * a.y⟩⟩

def dot (a b : Vec2 α) : α := a.x * b.x + a.y * b.y

def length (a : Vec2 α) : α := sqrt (a.dot a)

/-- The vector of length one in the same direction. -/
def normalize? (a : Vec2 α) : Option (Vec2 α) :=
  if a.length == zero || !isFinite a.length then none
  else some ⟨a.x / a.length, a.y / a.length⟩

/-- The part of `a` that lies along `b`. -/
def projectOn? (a b : Vec2 α) : Option (Vec2 α) :=
  b.normalize?.map fun direction => a.dot direction • direction

/-- The point at distance `radius` from the origin, `angle` counterclockwise from the first axis. -/
def ofPolar (radius angle : α) : Vec2 α := ⟨radius * cos angle, radius * sin angle⟩

end Vec2

namespace Vec3

variable [Scalar α]

instance : Add (Vec3 α) := ⟨fun a b => ⟨a.x + b.x, a.y + b.y, a.z + b.z⟩⟩
instance : Sub (Vec3 α) := ⟨fun a b => ⟨a.x - b.x, a.y - b.y, a.z - b.z⟩⟩
instance : Neg (Vec3 α) := ⟨fun a => ⟨-a.x, -a.y, -a.z⟩⟩
instance : SMul α (Vec3 α) := ⟨fun k a => ⟨k * a.x, k * a.y, k * a.z⟩⟩

def origin : Vec3 α := ⟨zero, zero, zero⟩

def unitX : Vec3 α := ⟨one, zero, zero⟩

def unitY : Vec3 α := ⟨zero, one, zero⟩

def unitZ : Vec3 α := ⟨zero, zero, one⟩

def dot (a b : Vec3 α) : α := a.x * b.x + a.y * b.y + a.z * b.z

def cross (a b : Vec3 α) : Vec3 α :=
  ⟨a.y * b.z - b.y * a.z, a.z * b.x - b.z * a.x, a.x * b.y - b.x * a.y⟩

def length (a : Vec3 α) : α := sqrt (a.dot a)

/-- The vector of length one in the same direction. -/
def normalize? (a : Vec3 α) : Option (Vec3 α) :=
  if a.length == zero || !isFinite a.length then none
  else some ⟨a.x / a.length, a.y / a.length, a.z / a.length⟩

/-- The part of `a` that lies along `b`. -/
def projectOn? (a b : Vec3 α) : Option (Vec3 α) :=
  b.normalize?.map fun direction => a.dot direction • direction

/-- The least value of each coordinate. -/
def least (a b : Vec3 α) : Vec3 α :=
  ⟨Scalar.least a.x b.x, Scalar.least a.y b.y, Scalar.least a.z b.z⟩

/-- The greatest value of each coordinate. -/
def greatest (a b : Vec3 α) : Vec3 α :=
  ⟨Scalar.greatest a.x b.x, Scalar.greatest a.y b.y, Scalar.greatest a.z b.z⟩

end Vec3

end Tendril
