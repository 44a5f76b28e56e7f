import Mathlib.Logic.Function.Iterate
import Tendril.Proofs.Grammar.Substitution

/-!
# Rules with one output

A rule with one output has nothing to choose: it replaces every symbol by a word that depends on the
symbol alone, and leaves the source as it was. Grammars of such rules derive the same words from any
source.
-/

namespace Tendril

variable {σ : Type} [WordSource σ]

namespace Rule

/-- A rule that has one output. -/
def Single (r : Rule) : Prop := r.others = []

instance (r : Rule) : Decidable r.Single := inferInstanceAs (Decidable (r.others = []))

/-- What a rule with one output makes of a symbol. -/
def image (r : Rule) (symbol : Char) : Word := if symbol = r.input then r.first else [symbol]

theorem Single.pick {r : Rule} (single : r.Single) (s : σ) : r.pick s = (r.first, s) := by
  unfold Rule.pick
  split
  · rfl
  case h_2 others =>
    rw [show r.others = [] from single] at others
    cases others

theorem Single.substitute {r : Rule} (single : r.Single) (w : Word) (s : σ) :
    r.substitute w s = (w.flatMap r.image, s) := by
  induction w with
  | nil => rfl
  | cons symbol w ih =>
      by_cases isInput : symbol = r.input
      · subst isInput
        rw [substitute_cons_input, single.pick, ih, List.flatMap_cons, image, if_pos rfl]
      · rw [substitute_cons_other r isInput, ih, List.flatMap_cons, image, if_neg isInput]
        rfl

end Rule

namespace Grammar

/-- What rules with one output make of a word, one after the other. -/
def image (rules : List Rule) (w : Word) : Word := rules.foldl (fun w r => w.flatMap r.image) w

theorem substituteAll_single {rules : List Rule} (single : ∀ r ∈ rules, r.Single) (w : Word)
    (s : σ) : substituteAll rules w s = (image rules w, s) := by
  induction rules generalizing w with
  | nil => rfl
  | cons r rules ih =>
      have later := ih (fun other member => single other (List.mem_cons_of_mem r member))
      have here := (single r List.mem_cons_self).substitute w s
      show substituteAll rules (r.substitute w s).1 (r.substitute w s).2 = _
      rw [here]
      exact later _

/-- A number of iterations is the image under the rules, taken as often. -/
theorem iterate_single {g : Grammar} (single : ∀ r ∈ g.rules, r.Single) (n : Nat) (s : σ) :
    g.iterate n s =
      ({ g with current := (image g.rules)^[n] g.current, iterations := g.iterations + n }, s) := by
  induction n generalizing g with
  | zero => rfl
  | succ n ih =>
      have once : g.step s =
          ({ g with current := image g.rules g.current, iterations := g.iterations + 1 }, s) := by
        rw [Grammar.step, substituteAll_single single]
      have later := ih (g := (g.step s).1) single
      show (g.step s).1.iterate n (g.step s).2 = _
      rw [once] at later ⊢
      rw [later, Function.iterate_succ_apply, Nat.add_assoc, Nat.add_comm 1 n]

theorem wordAfter_single {rules : List Rule} (single : ∀ r ∈ rules, r.Single) (n : Nat) (s : σ)
    (seed : Word) : wordAfter rules n s seed = (image rules)^[n] seed := by
  rw [wordAfter, iterate_single single]
  rfl

/-! ## Words in parts -/

/-- Rules with one output take a word part by part. -/
theorem image_append (rules : List Rule) (u v : Word) :
    image rules (u ++ v) = image rules u ++ image rules v := by
  induction rules generalizing u v with
  | nil => rfl
  | cons r rules ih =>
      show image rules ((u ++ v).flatMap r.image) = _
      rw [List.flatMap_append, ih]
      rfl

end Grammar

end Tendril
