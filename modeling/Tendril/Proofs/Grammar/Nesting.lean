import Mathlib.Data.List.Infix
import Tendril.Grammar.Rule

/-!
# Nesting of brackets

A word is nested when no prefix of it closes more brackets than it opens, and balanced when it also
closes all that it opens; all other symbols count for nothing. `depthAfter?` reads the same thing
off symbol by symbol, from any depth, so that words can be put together: `depthAfter?_eq_some_iff`
says that reading and counting agree, and everything below it is a consequence.
-/

namespace Tendril

/-- Every prefix opens at least as many brackets as it closes. -/
def Nested (w : Word) : Prop := ∀ u, u <+: w → u.count ']' ≤ u.count '['

/-- A nested word that closes every bracket. -/
structure Balanced (w : Word) : Prop where
  nested : Nested w
  closed : w.count '[' = w.count ']'

instance (w : Word) : Decidable (Nested w) :=
  decidable_of_iff (∀ u ∈ w.inits, u.count ']' ≤ u.count '[') (by simp [Nested, List.mem_inits])

instance (w : Word) : Decidable (Balanced w) :=
  decidable_of_iff (Nested w ∧ w.count '[' = w.count ']')
    ⟨fun h => ⟨h.1, h.2⟩, fun h => ⟨h.nested, h.closed⟩⟩

/-- The depth that a symbol leads to. A bracket that closes nothing leads nowhere. -/
def depthStep? (d : Nat) (symbol : Char) : Option Nat :=
  if symbol = '[' then some (d + 1)
  else if symbol = ']' then (if d = 0 then none else some (d - 1))
  else some d

/-- The depth that a word leads to, read from depth `d`. -/
def depthAfter? (d : Nat) (w : Word) : Option Nat := w.foldlM depthStep? d

/-! ## Reading a word in pieces -/

@[simp] theorem depthAfter?_nil (d : Nat) : depthAfter? d [] = some d := rfl

theorem depthAfter?_cons (d : Nat) (symbol : Char) (w : Word) :
    depthAfter? d (symbol :: w) = (depthStep? d symbol).bind fun e => depthAfter? e w := rfl

theorem depthAfter?_append (d : Nat) (u v : Word) :
    depthAfter? d (u ++ v) = (depthAfter? d u).bind fun e => depthAfter? e v := by
  simp only [depthAfter?, List.foldlM_append]
  rfl

theorem depthStep?_plain {symbol : Char} (plain : symbol ≠ '[' ∧ symbol ≠ ']') (d : Nat) :
    depthStep? d symbol = some d := by
  simp [depthStep?, plain.1, plain.2]

/-! ## Reading agrees with counting -/

/-- The condition on prefixes, for a word that is read from depth `d`. -/
def NestedFrom (d : Nat) (w : Word) : Prop := ∀ u, u <+: w → u.count ']' ≤ d + u.count '['

/-- Some prefix closes more than `d` brackets over those that it opens. -/
def Overcloses (d : Nat) (w : Word) : Prop := ∃ u, u <+: w ∧ d + u.count '[' < u.count ']'

theorem not_nestedFrom_iff {d : Nat} {w : Word} : ¬ NestedFrom d w ↔ Overcloses d w := by
  simp [NestedFrom, Overcloses]

theorem nestedFrom_nil (d : Nat) : NestedFrom d [] := by
  intro u below
  rw [List.prefix_nil.mp below]
  simp

theorem nested_iff_nestedFrom_zero (w : Word) : Nested w ↔ NestedFrom 0 w := by
  simp [Nested, NestedFrom]

/-- A step keeps count: what it opens goes onto the depth and what it closes comes off. -/
theorem depthStep?_eq_some_iff (d e : Nat) (symbol : Char) :
    depthStep? d symbol = some e ↔ d + [symbol].count '[' = e + [symbol].count ']' := by
  by_cases opens : symbol = '['
  · subst opens
    simp [depthStep?]
  by_cases closes : symbol = ']'
  · subst closes
    simp [depthStep?]
    omega
  · rw [depthStep?_plain ⟨opens, closes⟩]
    simp [opens, closes]

private theorem count_cons_split (symbol : Char) (w : Word) (c : Char) :
    (symbol :: w).count c = [symbol].count c + w.count c := by
  rw [← List.count_append, List.singleton_append]

/-- A symbol ahead of a word is read first, and the word from where it leads. -/
theorem nestedFrom_cons (d : Nat) (symbol : Char) (w : Word) :
    NestedFrom d (symbol :: w) ↔ ∃ e, depthStep? d symbol = some e ∧ NestedFrom e w := by
  constructor
  · intro nested
    -- The prefix of one symbol says that the step can be taken.
    have first := nested [symbol] (by simp [List.cons_prefix_cons])
    refine ⟨d + [symbol].count '[' - [symbol].count ']', ?_, fun u below => ?_⟩
    · rw [depthStep?_eq_some_iff]
      omega
    · have := nested (symbol :: u) (List.cons_prefix_cons.mpr ⟨rfl, below⟩)
      rw [count_cons_split symbol u '[', count_cons_split symbol u ']'] at this
      omega
  · rintro ⟨e, stepped, nested⟩ u below
    rw [depthStep?_eq_some_iff] at stepped
    rcases List.prefix_cons_iff.mp below with rfl | ⟨v, rfl, belowV⟩
    · simp
    · have := nested v belowV
      rw [count_cons_split symbol v '[', count_cons_split symbol v ']']
      omega

/-- Reading from depth `d` gets through a word exactly when no prefix closes more than it finds
open, and ends at the depth that the two counts say. -/
theorem depthAfter?_eq_some_iff (d e : Nat) (w : Word) :
    depthAfter? d w = some e ↔ NestedFrom d w ∧ d + w.count '[' = e + w.count ']' := by
  induction w generalizing d with
  | nil => simp [nestedFrom_nil]
  | cons symbol w ih =>
      rw [depthAfter?_cons, Option.bind_eq_some_iff, nestedFrom_cons]
      rw [count_cons_split symbol w '[', count_cons_split symbol w ']']
      -- The sums of the symbol and of the rest add up to those of the whole.
      constructor
      · rintro ⟨f, stepped, rest⟩
        obtain ⟨nested, sums⟩ := (ih f).mp rest
        refine ⟨⟨f, stepped, nested⟩, ?_⟩
        rw [depthStep?_eq_some_iff] at stepped
        omega
      · rintro ⟨⟨f, stepped, nested⟩, sums⟩
        refine ⟨f, stepped, (ih f).mpr ⟨nested, ?_⟩⟩
        rw [depthStep?_eq_some_iff] at stepped
        omega

/-- A word leads nowhere exactly if it closes too many brackets. -/
theorem depthAfter?_eq_none_iff {d : Nat} {w : Word} :
    depthAfter? d w = none ↔ Overcloses d w := by
  rw [← not_nestedFrom_iff, Option.eq_none_iff_forall_not_mem]
  constructor
  · intro nowhere nested
    have whole := nested w (List.prefix_refl w)
    refine nowhere (d + w.count '[' - w.count ']') ?_
    exact (depthAfter?_eq_some_iff ..).mpr ⟨nested, by omega⟩
  · intro overclosed e leads
    exact overclosed ((depthAfter?_eq_some_iff ..).mp leads).1

theorem depthAfter?_of_nested {w : Word} (nested : Nested w) :
    depthAfter? 0 w = some (w.count '[' - w.count ']') := by
  rw [depthAfter?_eq_some_iff]
  have whole := nested w (List.prefix_refl w)
  exact ⟨(nested_iff_nestedFrom_zero w).mp nested, by omega⟩

theorem balanced_iff_depthAfter? (w : Word) : Balanced w ↔ depthAfter? 0 w = some 0 := by
  rw [depthAfter?_eq_some_iff, ← nested_iff_nestedFrom_zero]
  constructor
  · rintro ⟨nested, closed⟩
    exact ⟨nested, by omega⟩
  · rintro ⟨nested, closed⟩
    exact ⟨nested, by omega⟩

/-- A balanced word leads back to whatever depth it is read from. -/
theorem depthAfter?_of_balanced {w : Word} (balanced : Balanced w) (d : Nat) :
    depthAfter? d w = some d := by
  rw [depthAfter?_eq_some_iff]
  refine ⟨fun u below => ?_, by rw [balanced.closed]⟩
  have := balanced.nested u below
  omega

end Tendril
