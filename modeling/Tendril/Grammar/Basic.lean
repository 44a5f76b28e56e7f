import Tendril.Grammar.Rule

/-!
# Grammars

A grammar derives word after word from a first one. An iteration applies the rules one after the
other, in the order in which they were registered, each to the whole of what the rule before it
made.
-/

namespace Tendril

/-- Rules, the word they started from, and the word they have reached. -/
structure Grammar where
  seed : Word
  rules : List Rule
  current : Word
  iterations : Nat
  deriving DecidableEq, Repr

namespace Grammar

variable {σ : Type} [WordSource σ]

/-- A grammar that has not derived anything yet. -/
def ofRules (seed : Word) (rules : List Rule) : Grammar := ⟨seed, rules, seed, 0⟩

/-- Registers a further rule, behind all others. -/
def addRule (g : Grammar) (r : Rule) : Grammar := { g with rules := g.rules ++ [r] }

/-- Rules that are registered one by one make the grammar that has them from the start. -/
theorem foldl_addRule (seed : Word) (front rules : List Rule) :
    rules.foldl addRule (ofRules seed front) = ofRules seed (front ++ rules) := by
  induction rules generalizing front with
  | nil => rw [List.append_nil, List.foldl_nil]
  | cons r rules ih =>
      show rules.foldl addRule (ofRules seed (front ++ [r])) = _
      rw [ih, List.append_assoc, List.singleton_append]

/-- Applies the rules one after the other. -/
def substituteAll (rules : List Rule) (w : Word) (s : σ) : Word × σ :=
  rules.foldl (fun (w, s) r => r.substitute w s) (w, s)

/-- One iteration. -/
def step (g : Grammar) (s : σ) : Grammar × σ :=
  let (w, s) := substituteAll g.rules g.current s
  ({ g with current := w, iterations := g.iterations + 1 }, s)

/-- A number of iterations, all from the same source. -/
def iterate (g : Grammar) (n : Nat) (s : σ) : Grammar × σ :=
  match n with
  | 0 => (g, s)
  | n + 1 =>
      let (g, s) := g.step s
      g.iterate n s

/-- Goes back to the word that the grammar started from. -/
def reset (g : Grammar) : Grammar := { g with current := g.seed, iterations := 0 }

end Grammar

end Tendril
