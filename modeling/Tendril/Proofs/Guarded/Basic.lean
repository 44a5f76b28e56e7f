import Tendril.Proofs.Failure
import Tendril.Proofs.Mesh.Numbers

/-!
# Guarded runs

Some steps make no sense for some values: an item that a list does not have, a remainder by nothing,
a choice among nothing, a number that no machine word holds. A guarded run asks before each of these
steps, and breaks down where one makes no sense; besides that it gets through or fails as any run.
A guarded run that comes to the same as a run never breaks down.
-/

namespace Tendril

variable {ε β γ δ : Type}

/-- A run that may break down, fail, or get through. -/
abbrev Guarded (ε β : Type) := ExceptT ε Option β

namespace Guarded

/-- A run without a step to ask about. -/
def sure (run : Except ε β) : Guarded ε β := ExceptT.mk (some run)

theorem sure_ok_bind (b : β) (next : β → Guarded ε γ) : (sure (.ok b) >>= next) = next b := rfl

/-- A guarded run does not break down where none of its stages does. -/
theorem sure_bind {first : Except ε β} {next : β → Guarded ε γ} {run : β → Except ε γ}
    (second : ∀ b, first = .ok b → next b = sure (run b)) :
    (sure first >>= next) = sure (first >>= run) := by
  cases first with
  | error failure => rfl
  | ok b => exact second b rfl

/-- A step that makes sense can be left out. -/
theorem lift_bind {step : Option β} {b : β} {next : β → Guarded ε γ} (sound : step = some b) :
    ((liftM step : Guarded ε β) >>= next) = next b := by
  subst sound
  rfl

end Guarded

/-! ## Steps that may make no sense -/

/-- A number as an index. -/
def index? (n : Nat) : Option Index := if n < UInt32.size then some (UInt32.ofNat n) else none

/-- A number as a size in memory. -/
def size? (n : Nat) : Option Nat := if n < UInt64.size then some n else none

def difference? (a b : Nat) : Option Nat := if b ≤ a then some (a - b) else none

def quotient? (a b : Nat) : Option Nat := if b = 0 then none else some (a / b)

def remainder? (a b : Nat) : Option Nat := if b = 0 then none else some (a % b)

theorem index?_of_lt {n : Nat} (fits : n < 2 ^ 32) : index? n = some (UInt32.ofNat n) := if_pos fits

theorem size?_of_lt {n : Nat} (fits : n < 2 ^ 64) : size? n = some n := if_pos fits

theorem difference?_of_le {a b : Nat} (within : b ≤ a) : difference? a b = some (a - b) :=
  if_pos within

theorem quotient?_of_pos {a b : Nat} (some : 0 < b) : quotient? a b = .some (a / b) :=
  if_neg (by omega)

theorem remainder?_of_pos {a b : Nat} (some : 0 < b) : remainder? a b = .some (a % b) :=
  if_neg (by omega)

/-! ## Steps along a list -/

/-- Where every step of a fold makes sense, so does the fold. -/
theorem foldlM_eq_some {step : β → γ → Option β} {plain : β → γ → β} {l : List γ}
    (sound : ∀ c ∈ l, ∀ b, step b c = some (plain b c)) (b : β) :
    l.foldlM step b = some (l.foldl plain b) := by
  induction l generalizing b with
  | nil => rfl
  | cons c l ih =>
      rw [List.foldlM_cons, sound c List.mem_cons_self, List.foldl_cons]
      exact ih (fun other member => sound other (List.mem_cons_of_mem c member)) (plain b c)

theorem mapM_eq_some {step : β → Option γ} {plain : β → γ} {l : List β}
    (sound : ∀ b ∈ l, step b = some (plain b)) : l.mapM step = some (l.map plain) := by
  induction l with
  | nil => rfl
  | cons b l ih =>
      rw [List.mapM_cons, sound b List.mem_cons_self,
        ih fun other member => sound other (List.mem_cons_of_mem b member)]
      rfl

end Tendril
