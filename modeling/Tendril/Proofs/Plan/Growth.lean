import Tendril.Plan.Growth
import Tendril.Proofs.Grammar.Draft
import Tendril.Proofs.Grammar.Substitution
import Tendril.Proofs.Grammar.Symbols
import Tendril.Proofs.Turtle.Built
import Tendril.Proofs.Turtle.Depth

/-!
# Growing balanced words

A plan whose first word and outputs are balanced, and whose rules leave the brackets alone, grows a
balanced word however often it iterates and however its source chooses. No turtle runs out of saved
frames on such a word, and one that gets through it has as many left as it came with.
-/

namespace Tendril

variable {α : Type} {σ : Type} [WordSource σ]

/-! ## What a plan's grammar keeps -/

namespace GrowthPlan

/-- A plan has a grammar exactly when its drafts are those of rules, and these are then the rules of
the grammar. -/
theorem grammar_eq_ok_iff {p : GrowthPlan α} {g : Grammar} :
    p.grammar = .ok g ↔
      ∃ rules, rules.map Rule.draft = p.rules ∧ g = .ofRules p.seedWord rules := by
  unfold grammar
  rw [bind_eq_ok_iff]
  constructor
  · rintro ⟨rules, read, finished⟩
    cases finished
    exact ⟨rules, RuleDraft.mapM_rule_eq_ok_iff.mp read, rfl⟩
  · rintro ⟨rules, drafted, rfl⟩
    exact ⟨rules, RuleDraft.mapM_rule_eq_ok_iff.mpr drafted, rfl⟩

theorem grammar_eq_error_iff {p : GrowthPlan α} {failure : Failure α} :
    p.grammar = .error failure ↔
      ∃ d, p.rules.find? (fun d => d.outputs.isEmpty) = some d ∧
        failure = .misuse (.noOutputs d.input) := by
  unfold grammar
  rw [bind_eq_error_iff, RuleDraft.mapM_rule_eq_error_iff]
  constructor
  · rintro (refused | ⟨_, _, finished⟩)
    · exact refused
    · cases finished
  · exact .inl

/-- Only its grammar keeps a plan from growing a word. -/
theorem expand_eq_error_iff {p : GrowthPlan α} {source : σ} {failure : Failure α} :
    p.expand source = .error failure ↔ p.grammar = .error failure := by
  unfold expand
  rw [bind_eq_error_iff]
  constructor
  · rintro (refused | ⟨g, _, finished⟩)
    · exact refused
    · cases seeded : p.seed with
      | none => simp [seeded, pure, Except.pure] at finished
      | some seed => simp [seeded, pure, Except.pure] at finished
  · exact .inl

/-- A word that a plan grows is one that its grammar derives, be it from the plan's own source or
from the one it is given. -/
theorem expand_eq_ok {p : GrowthPlan α} {source : σ} {w : Word} (grown : p.expand source = .ok w) :
    ∃ g, p.grammar = .ok g ∧
      ((∃ seed, p.seed = some seed ∧
          w = (g.iterate p.iterations.toNat (KeyStream.ofSeed seed)).1.current) ∨
        (p.seed = none ∧ w = (g.iterate p.iterations.toNat source).1.current)) := by
  unfold expand at grown
  obtain ⟨g, made, derived⟩ := bind_eq_ok_iff.mp grown
  refine ⟨g, made, ?_⟩
  cases seeded : p.seed with
  | none =>
      simp only [seeded] at derived
      cases derived
      exact .inr ⟨rfl, rfl⟩
  | some seed =>
      simp only [seeded] at derived
      cases derived
      exact .inl ⟨seed, rfl, rfl⟩

/-- The rules of a plan for balanced branches are branching rules. -/
theorem branching_of_drafts {p : GrowthPlan α} {g : Grammar} (made : p.grammar = .ok g)
    (outputsBalanced : ∀ d ∈ p.rules, ∀ w ∈ d.outputs, Balanced w)
    (inputsPlain : ∀ d ∈ p.rules, d.input ≠ '[' ∧ d.input ≠ ']') :
    ∀ r ∈ g.rules, r.Branching := by
  obtain ⟨rules, drafted, rfl⟩ := grammar_eq_ok_iff.mp made
  intro r member
  have written : r.draft ∈ p.rules := drafted ▸ List.mem_map_of_mem member
  exact ⟨inputsPlain _ written, outputsBalanced _ written⟩

theorem balanced_of_expand {p : GrowthPlan α} {source : σ} {w : Word}
    (grown : p.expand source = .ok w) (seedBalanced : Balanced p.seedWord)
    (outputsBalanced : ∀ d ∈ p.rules, ∀ w ∈ d.outputs, Balanced w)
    (inputsPlain : ∀ d ∈ p.rules, d.input ≠ '[' ∧ d.input ≠ ']') : Balanced w := by
  obtain ⟨g, made, derived⟩ := expand_eq_ok grown
  have branching := branching_of_drafts made outputsBalanced inputsPlain
  have current : g.current = p.seedWord := by
    obtain ⟨rules, _, rfl⟩ := grammar_eq_ok_iff.mp made
    rfl
  rw [balanced_iff_depthAfter?, ← current] at seedBalanced
  rw [balanced_iff_depthAfter?, ← seedBalanced]
  rcases derived with ⟨seed, _, rfl⟩ | ⟨_, rfl⟩
  · exact g.depthAfter?_iterate branching _ _ 0
  · exact g.depthAfter?_iterate branching _ _ 0

/-- A symbol of a word that a plan grows was there at first, or is in an output. -/
theorem mem_expand {p : GrowthPlan α} {source : σ} {w : Word} (grown : p.expand source = .ok w)
    {symbol : Char} (member : symbol ∈ w) :
    symbol ∈ p.seedWord ∨ ∃ d ∈ p.rules, ∃ output ∈ d.outputs, symbol ∈ output := by
  obtain ⟨g, made, derived⟩ := expand_eq_ok grown
  obtain ⟨rules, drafted, rfl⟩ := grammar_eq_ok_iff.mp made
  have origin : symbol ∈ p.seedWord ∨ ∃ r ∈ rules, ∃ output ∈ r.outputs, symbol ∈ output := by
    rcases derived with ⟨seed, _, rfl⟩ | ⟨_, rfl⟩
    · exact Grammar.mem_iterate _ _ _ member
    · exact Grammar.mem_iterate _ _ _ member
  rcases origin with first | ⟨r, known, output, chosen, put⟩
  · exact .inl first
  · exact .inr ⟨r.draft, drafted ▸ List.mem_map_of_mem known, output, chosen, put⟩

end GrowthPlan

/-! ## Drawing a balanced word -/

variable [Scalar α]

/-- Balanced words never pop more than they have pushed, whatever the turtle saved before. -/
theorem Balanced.draw {w : Word} (balanced : Balanced w) (t : Turtle α) :
    (t.draw w).failure ≠ some .emptyStack ∧
      ((t.draw w).failure = none → (t.draw w).turtle.depth = t.depth) := by
  have leads := depthAfter?_of_balanced balanced t.depth
  refine ⟨Turtle.draw_ne_emptyStack leads, fun through => ?_⟩
  have ends := Turtle.depth_draw through
  rw [leads, Option.some.injEq] at ends
  exact ends.symm

/-- Drawing a plan fails in its grammar, in its turtle, or in the middle of the word. -/
theorem GrowthPlan.segments_eq_error_iff {p : GrowthPlan α} {source : σ} {failure : Failure α} :
    p.segments source = .error failure ↔
      p.grammar = .error failure ∨ ∃ w, p.expand source = .ok w ∧
        (p.turtle = .error failure ∨
          ∃ t, p.turtle = .ok t ∧ (t.draw w).failure = some failure) := by
  unfold segments
  simp only [bind_eq_error_iff, expand_eq_error_iff, Drawing.result_eq_error_iff]

/-- A plan that plants balanced branches grows a balanced word, never asks for a frame that was not
saved, and leaves any turtle with as many saved frames as it had. -/
theorem GrowthPlan.grows_balanced (p : GrowthPlan α) (source : σ)
    (seedBalanced : Balanced p.seedWord)
    (outputsBalanced : ∀ d ∈ p.rules, ∀ w ∈ d.outputs, Balanced w)
    (inputsPlain : ∀ d ∈ p.rules, d.input ≠ '[' ∧ d.input ≠ ']') :
    ((∀ d ∈ p.rules, d.outputs ≠ []) → ∃ w, p.expand source = .ok w) ∧
      (∀ w, p.expand source = .ok w → Balanced w ∧
        ∀ t : Turtle α, (t.draw w).failure ≠ some .emptyStack ∧
          ((t.draw w).failure = none → (t.draw w).turtle.depth = t.depth)) ∧
      p.segments source ≠ .error .emptyStack := by
  have balanced : ∀ w, p.expand source = .ok w → Balanced w := fun w grown =>
    balanced_of_expand grown seedBalanced outputsBalanced inputsPlain
  refine ⟨fun complete => ?_, fun w grown => ⟨balanced w grown, (balanced w grown).draw⟩, ?_⟩
  · cases grown : p.expand source with
    | ok w => exact ⟨w, rfl⟩
    | error failure =>
        obtain ⟨d, found, _⟩ := grammar_eq_error_iff.mp (expand_eq_error_iff.mp grown)
        have empty : d.outputs = [] := by simpa using List.find?_some found
        exact absurd empty (complete d (List.mem_of_find?_eq_some found))
  · rw [ne_eq, segments_eq_error_iff]
    -- Neither the drafts nor the settings know of a stack, and the word does not empty it.
    rintro (refused | ⟨w, grown, unbuilt | ⟨t, _, stuck⟩⟩)
    · obtain ⟨_, _, cause⟩ := grammar_eq_error_iff.mp refused
      cases cause
    · rcases Turtle.ofSettings_eq_error unbuilt with ⟨_, cause⟩ | cause <;> cases cause
    · exact ((balanced w grown).draw t).1 stuck

/-- Two rules, one of them with a choice that drops the branch. -/
def GrowthPlan.twig : GrowthPlan Float :=
  { standard with
    seedWord := "[X]F".toList
    rules := [⟨'X', ["F[+X]F[-X]".toList, "".toList]⟩, ⟨'F', ["FF".toList]⟩]
    iterations := 3 }

theorem GrowthPlan.twig_grows_balanced :
    Balanced twig.seedWord ∧ (∃ w, twig.expand (Script.ofList [7, 0x8000000000000000, 5]) = .ok w) ∧
      (∀ w, twig.expand (Script.ofList [7, 0x8000000000000000, 5]) = .ok w → Balanced w ∧
        ∀ t : Turtle Float, (t.draw w).failure ≠ some .emptyStack ∧
          ((t.draw w).failure = none → (t.draw w).turtle.depth = t.depth)) ∧
      twig.segments (Script.ofList [7, 0x8000000000000000, 5]) ≠ .error .emptyStack := by
  have seed : Balanced twig.seedWord := by decide
  have grows := grows_balanced twig (Script.ofList [7, 0x8000000000000000, 5]) seed (by decide)
    (by decide)
  exact ⟨seed, grows.1 (by decide), grows.2⟩

end Tendril
