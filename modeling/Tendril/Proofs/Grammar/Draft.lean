import Tendril.Grammar.Rule
import Tendril.Proofs.Failure

/-!
# Rules and their drafts

A draft with an output and its rule say the same thing: reading a draft gives back the rule that
would be written down so, and nothing else. A draft without outputs is refused, naming its input.
-/

namespace Tendril

variable {α : Type}

namespace RuleDraft

theorem rule_eq_ok_iff {d : RuleDraft} {r : Rule} :
    d.rule = (.ok r : Except (Failure α) Rule) ↔ r.draft = d := by
  obtain ⟨input, outputs⟩ := d
  obtain ⟨ruleInput, first, others⟩ := r
  cases outputs with
  | nil => simp [rule, rule?, Rule.draft, Rule.outputs]
  | cons output rest => simp [rule, rule?, Rule.draft, Rule.outputs, eq_comm]

theorem rule_eq_error_iff {d : RuleDraft} {failure : Failure α} :
    d.rule = .error failure ↔ d.outputs = [] ∧ failure = .misuse (.noOutputs d.input) := by
  obtain ⟨input, outputs⟩ := d
  cases outputs with
  | nil => simp [rule, rule?, eq_comm]
  | cons output rest => simp [rule, rule?]

/-- A list of drafts is read into the rules that would be written down so. -/
theorem mapM_rule_eq_ok_iff {drafts : List RuleDraft} {rules : List Rule} :
    drafts.mapM rule = (.ok rules : Except (Failure α) (List Rule)) ↔
      rules.map Rule.draft = drafts := by
  induction drafts generalizing rules with
  | nil => simp [pure, Except.pure, eq_comm]
  | cons d drafts ih =>
      rw [List.mapM_cons, bind_eq_ok_iff]
      constructor
      · rintro ⟨r, read, rest⟩
        obtain ⟨later, readLater, finished⟩ := bind_eq_ok_iff.mp rest
        cases finished
        rw [List.map_cons, rule_eq_ok_iff.mp read, ih.mp readLater]
      · intro written
        cases rules with
        | nil => cases written
        | cons r later =>
            rw [List.map_cons, List.cons.injEq] at written
            refine ⟨r, rule_eq_ok_iff.mpr written.1, ?_⟩
            rw [ih.mpr written.2]
            rfl

/-- A list of drafts is refused for its first draft without outputs. -/
theorem mapM_rule_eq_error_iff {drafts : List RuleDraft} {failure : Failure α} :
    drafts.mapM rule = .error failure ↔
      ∃ d, drafts.find? (fun d => d.outputs.isEmpty) = some d ∧
        failure = .misuse (.noOutputs d.input) := by
  induction drafts with
  | nil => simp [pure, Except.pure]
  | cons d drafts ih =>
      rw [List.mapM_cons, bind_eq_error_iff, rule_eq_error_iff]
      cases empty : d.outputs with
      | nil =>
          have refused : ∀ r, d.rule ≠ (.ok r : Except (Failure α) Rule) := by
            intro r read
            have written := rule_eq_ok_iff.mp read
            rw [← written] at empty
            cases empty
          simp [empty, refused]
      | cons output rest =>
          have written : (⟨d.input, output, rest⟩ : Rule).draft = d := by
            simp [Rule.draft, Rule.outputs, ← empty]
          have read : d.rule = (.ok ⟨d.input, output, rest⟩ : Except (Failure α) Rule) :=
            rule_eq_ok_iff.mpr written
          rw [List.find?_cons_of_neg (by simp [empty]), ← ih]
          constructor
          · rintro (⟨none, _⟩ | ⟨_, _, rest'⟩)
            · cases none
            · rcases bind_eq_error_iff.mp rest' with later | ⟨_, _, finished⟩
              · exact later
              · cases finished
          · intro later
            exact .inr ⟨_, read, bind_eq_error_iff.mpr (.inl later)⟩

end RuleDraft

end Tendril
