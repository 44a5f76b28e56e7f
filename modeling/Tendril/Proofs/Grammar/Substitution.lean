import Tendril.Grammar.Basic
import Tendril.Proofs.Grammar.Nesting

/-!
# Substitution, symbol by symbol

What a rule makes of a word is the outputs and the symbols that it passes over, one behind the
other, with the source of choices threaded through them from left to right. A property of words that
every rule of a grammar keeps is kept by any number of iterations, whatever the source answers; the
depth of nesting is one of them.
-/

namespace Tendril

variable {σ : Type} [WordSource σ]

namespace Rule

/-- Whatever the source answers, the choice is one of the outputs. -/
theorem pick_mem (r : Rule) (s : σ) : (r.pick s).1 ∈ r.outputs := by
  unfold pick
  split
  · simp [outputs]
  · exact List.get_mem ..

/-- Substituting goes on behind what is already there, and does not look at it. -/
theorem foldl_substituteSymbol (r : Rule) (w : Word) (done : Array Char) (s : σ) :
    (w.foldl r.substituteSymbol (done, s)).1.toList = done.toList ++ (r.substitute w s).1 ∧
      (w.foldl r.substituteSymbol (done, s)).2 = (r.substitute w s).2 := by
  induction w generalizing done s with
  | nil => simp [substitute]
  | cons symbol w ih =>
      simp only [substitute, List.foldl_cons]
      -- The rest goes on behind `done` on the left and behind nothing on the right.
      by_cases isInput : symbol = r.input
      · simp only [substituteSymbol, if_pos isInput]
        rw [(ih _ _).1, (ih _ _).2, (ih (#[].appendList _) _).1, (ih (#[].appendList _) _).2]
        simp
      · simp only [substituteSymbol, if_neg isInput]
        rw [(ih _ _).1, (ih _ _).2, (ih (#[].push _) _).1, (ih (#[].push _) _).2]
        simp

theorem substitute_cons_input (r : Rule) (w : Word) (s : σ) :
    r.substitute (r.input :: w) s =
      ((r.pick s).1 ++ (r.substitute w (r.pick s).2).1, (r.substitute w (r.pick s).2).2) := by
  have rest := foldl_substituteSymbol r w (#[].appendList (r.pick s).1) (r.pick s).2
  simp only [substitute, List.foldl_cons, substituteSymbol, if_pos]
  rw [rest.1, rest.2]
  simp [substitute]

theorem substitute_cons_other (r : Rule) {symbol : Char} (other : symbol ≠ r.input) (w : Word)
    (s : σ) :
    r.substitute (symbol :: w) s = (symbol :: (r.substitute w s).1, (r.substitute w s).2) := by
  have rest := foldl_substituteSymbol r w (#[].push symbol) s
  simp only [substitute, List.foldl_cons, substituteSymbol, if_neg other]
  rw [rest.1, rest.2]
  simp [substitute]

end Rule

namespace Grammar

/-- What each rule keeps, one iteration's rules keep one after the other. -/
theorem substituteAll_keeps {P : Word → Prop} (rules : List Rule)
    (kept : ∀ r ∈ rules, ∀ (w : Word) (s : σ), P w → P (r.substitute w s).1) (w : Word) (s : σ)
    (start : P w) : P (substituteAll rules w s).1 := by
  induction rules generalizing w s with
  | nil => exact start
  | cons r rules ih =>
      have here := kept r List.mem_cons_self w s start
      exact ih (fun r' member => kept r' (List.mem_cons_of_mem _ member)) _ _ here

/-- What each rule keeps, any number of iterations keeps. -/
theorem iterate_keeps {P : Word → Prop} (g : Grammar)
    (kept : ∀ r ∈ g.rules, ∀ (w : Word) (s : σ), P w → P (r.substitute w s).1) (n : Nat) (s : σ)
    (start : P g.current) : P (g.iterate n s).1.current := by
  induction n generalizing g s with
  | zero => exact start
  | succ n ih =>
      have once := substituteAll_keeps g.rules kept g.current s start
      exact ih (g.step s).1 kept (g.step s).2 once

theorem rules_iterate (g : Grammar) (n : Nat) (s : σ) : (g.iterate n s).1.rules = g.rules := by
  induction n generalizing g s with
  | zero => rfl
  | succ n ih => exact ih (g.step s).1 (g.step s).2

/-- The word that a number of iterations lead to from a first one. -/
def wordAfter (rules : List Rule) (n : Nat) (s : σ) (seed : Word) : Word :=
  ((ofRules seed rules).iterate n s).1.current

end Grammar

/-! ## Depth of nesting -/

/-- A rule for balanced branches: its input is no bracket and its outputs are balanced. -/
structure Rule.Branching (r : Rule) : Prop where
  plain : r.input ≠ '[' ∧ r.input ≠ ']'
  balanced : ∀ w ∈ r.outputs, Balanced w

/-- A balanced output in the place of a symbol that is no bracket leads to the same depth, at
whatever depth it stands. -/
theorem Rule.Branching.depthAfter?_substitute {r : Rule} (branching : r.Branching) (d : Nat)
    (w : Word) (s : σ) : depthAfter? d (r.substitute w s).1 = depthAfter? d w := by
  induction w generalizing d s with
  | nil => rfl
  | cons symbol w ih =>
      by_cases isInput : symbol = r.input
      · subst isInput
        -- The output stands at depth `d`, and leads from there back to it.
        have output := branching.balanced _ (r.pick_mem s)
        rw [substitute_cons_input, depthAfter?_append, depthAfter?_of_balanced output,
          depthAfter?_cons, depthStep?_plain branching.plain, Option.bind_some, Option.bind_some,
          ih]
      · rw [substitute_cons_other r isInput, depthAfter?_cons, depthAfter?_cons]
        congr 1
        funext e
        exact ih e s

/-- Derivations of branching rules end at the depth at which they started. -/
theorem Grammar.depthAfter?_iterate (g : Grammar) (branching : ∀ r ∈ g.rules, r.Branching) (n : Nat)
    (s : σ) (d : Nat) : depthAfter? d (g.iterate n s).1.current = depthAfter? d g.current := by
  refine iterate_keeps (P := fun w => depthAfter? d w = depthAfter? d g.current) g ?_ n s rfl
  intro r member w s' kept
  rw [(branching r member).depthAfter?_substitute, kept]

end Tendril
