import Tendril.Decimal.Layout
import Tendril.Scalar

/-!
# Settings

The plain values a run is configured with, their defaults, and the check that every run makes of
them. The check reports the first fault in the order of the fields, a turn angle being free as long
as it is a number and everything else being positive.
-/

namespace Tendril

open Scalar

variable {α : Type}

/-- Fewer points than this enclose no area. -/
def minRingSize : Nat := 3

/-- Cross-sections have this many points unless told otherwise. -/
def defaultRingSize : Nat := 20

def defaultIterations : Nat := 20

def defaultTurnAngle [Scalar α] : α := pi / two

def defaultBranchLength [Scalar α] : α := one

def defaultBranchRadius [Scalar α] : α := one / ofCount 10

def defaultBranchRingSize : Nat := 10

/-- What a run is configured with. -/
structure Settings (α : Type) where
  maxIterations : UInt64
  branchLength : α
  turnAngle : α
  profileResolution : UInt64
  branchRadius : α
  branchResolution : UInt64

/-- A setting outside its range, with the value that was given. -/
inductive SettingFault (α : Type) where
  | iterations (given : UInt64)
  | branchLength (given : α)
  | turnAngle (given : α)
  | resolution (given : UInt64)
  | radius (given : α)
  deriving DecidableEq

namespace SettingFault

/-- The fault as a sentence. -/
def message : SettingFault Float → String
  | .iterations given => s!"max_iterations must be > 0: {given}"
  | .branchLength given => s!"branch_length must be positive: {Layout.sentence.write given}"
  | .turnAngle given => s!"turn_angle must be finite: {Layout.sentence.write given}"
  | .resolution given => s!"resolution must be >= {minRingSize}: {given}"
  | .radius given => s!"radius must be positive: {Layout.sentence.write given}"

end SettingFault

namespace Settings

variable [Scalar α]

def standard : Settings α where
  maxIterations := UInt64.ofNat defaultIterations
  branchLength := defaultBranchLength
  turnAngle := defaultTurnAngle
  profileResolution := UInt64.ofNat defaultRingSize
  branchRadius := defaultBranchRadius
  branchResolution := UInt64.ofNat defaultBranchRingSize

/-- The first setting that is out of range, in the order of the fields. -/
def fault? (s : Settings α) : Option (SettingFault α) :=
  if s.maxIterations.toNat = 0 then some (.iterations s.maxIterations)
  else if !isSize s.branchLength then some (.branchLength s.branchLength)
  else if !isFinite s.turnAngle then some (.turnAngle s.turnAngle)
  else if s.profileResolution.toNat < minRingSize then some (.resolution s.profileResolution)
  else if !isSize s.branchRadius then some (.radius s.branchRadius)
  else if s.branchResolution.toNat < minRingSize then some (.resolution s.branchResolution)
  else none

/-- Passes on settings that are all in range. -/
def checked (s : Settings α) : Except (SettingFault α) (Settings α) :=
  match s.fault? with
  | some fault => .error fault
  | none => .ok s

/-- Settings with standard branches. -/
def make (maxIterations : UInt64) (branchLength turnAngle : α) (profileResolution : UInt64) :
    Except (SettingFault α) (Settings α) :=
  checked { standard with maxIterations, branchLength, turnAngle, profileResolution }

/-- Settings with branches of another size. -/
def withBranch (s : Settings α) (branchRadius : α) (branchResolution : UInt64) :
    Except (SettingFault α) (Settings α) :=
  checked { s with branchRadius, branchResolution }

end Settings

end Tendril
