import Tendril.Failure

/-!
# How failures travel

A run that goes through several stages ends in the failure of the first stage that fails. The
laws of sequencing take a run apart stage by stage; `firstFailure` says of a list of checks which
one stops a run that makes them in order, and `lack` when a run stops for want of a value.
-/

namespace Tendril

variable {ε β γ δ : Type} {first : Except ε β} {next : β → Except ε γ}

/-- A run that gets through has got through each of its stages. -/
theorem bind_eq_ok_iff {result : γ} :
    (first >>= next) = .ok result ↔ ∃ b, first = .ok b ∧ next b = .ok result := by
  cases first with
  | error failure => simp [bind, Except.bind]
  | ok b => simp [bind, Except.bind]

/-- A run that fails has failed in its first stage, or behind it. -/
theorem bind_eq_error_iff {failure : ε} :
    (first >>= next) = .error failure ↔
      first = .error failure ∨ ∃ b, first = .ok b ∧ next b = .error failure := by
  cases first with
  | error failure => simp [bind, Except.bind]
  | ok b => simp [bind, Except.bind]

/-- The failure that a run ends in, if it does not get through. -/
def failure? : Except ε β → Option ε
  | .error failure => some failure
  | .ok _ => none

@[simp] theorem failure?_error (failure : ε) :
    failure? (.error failure : Except ε β) = some failure := rfl

@[simp] theorem failure?_ok (b : β) : failure? (.ok b : Except ε β) = none := rfl

theorem failure?_eq_some_iff {run : Except ε β} {failure : ε} :
    failure? run = some failure ↔ run = .error failure := by
  cases run <;> simp

theorem failure?_eq_none_iff {run : Except ε β} : failure? run = none ↔ ∃ b, run = .ok b := by
  cases run <;> simp

/-- A run in two stages fails as its first stage does, or else as the second, which is known for
every answer of the first. -/
theorem failure?_bind (later : Option ε)
    (second : ∀ b, first = .ok b → failure? (next b) = later) :
    failure? (first >>= next) = (failure? first).or later := by
  cases first with
  | error failure => rfl
  | ok b => exact second b rfl

/-- The first failure of checks that are made in order. A check without a failure is passed. -/
def firstFailure : List (Option ε) → Option ε
  | [] => none
  | check :: checks => check.or (firstFailure checks)

@[simp] theorem firstFailure_nil : firstFailure ([] : List (Option ε)) = none := rfl

@[simp] theorem firstFailure_cons (check : Option ε) (checks : List (Option ε)) :
    firstFailure (check :: checks) = check.or (firstFailure checks) := rfl

theorem mem_of_firstFailure {checks : List (Option ε)} {failure : ε}
    (failed : firstFailure checks = some failure) : some failure ∈ checks := by
  induction checks with
  | nil => cases failed
  | cons check checks ih =>
      rw [firstFailure_cons, Option.or_eq_some_iff] at failed
      rcases failed with rfl | ⟨_, later⟩
      · exact List.mem_cons_self
      · exact List.mem_cons_of_mem _ (ih later)

/-- The failure that the want of a value is. -/
def lack (failure : ε) : Option β → Option ε
  | none => some failure
  | some _ => none

theorem eq_of_lack {failure other : ε} {value : Option β}
    (wanting : lack failure value = some other) : other = failure := by
  cases value with
  | none => exact (Option.some.inj wanting).symm
  | some b => cases wanting

/-- Where every stage wants a value for the same reason, the run fails when one of the values is not
to be had. -/
theorem failure?_bind_elim {failure : ε} {value : Option β} {rest : β → Option δ}
    (second : ∀ b, failure? (next b) = lack failure (rest b)) :
    failure? (value.elim (.error failure) .ok >>= next) = lack failure (value.bind rest) := by
  cases value with
  | none => rfl
  | some b => exact second b

/-- Results can be told apart when failures and answers can. -/
instance decidableEqExcept [DecidableEq ε] [DecidableEq β] : DecidableEq (Except ε β)
  | .ok a, .ok b => decidable_of_iff (a = b) (by simp)
  | .error a, .error b => decidable_of_iff (a = b) (by simp)
  | .ok _, .error _ => isFalse (by simp)
  | .error _, .ok _ => isFalse (by simp)

end Tendril
