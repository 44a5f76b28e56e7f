import Mathlib.Algebra.Order.BigOperators.Group.Finset
import Mathlib.Order.Interval.Set.Defs
import Tendril.Proofs.Grammar.Symbols

/-!
# How far chance can go

What a rule makes of a word depends on the source, but not without limits: every occurrence of the
input brings in no less than the output that has the fewest symbols of some kind, and no more than
the one that has the most. Over the iterations of a grammar of one rule the inputs multiply between
these limits and the symbols that are passed over add up between theirs.
-/

namespace Tendril

variable {σ : Type} [WordSource σ]

namespace Rule

theorem map_outputs_ne_nil {β : Type} (r : Rule) (f : Word → β) : r.outputs.map f ≠ [] := by
  simp [outputs]

/-- How many symbols of a kind there are in the output that has the fewest. -/
def fewest (r : Rule) (p : Char → Bool) : Nat :=
  (r.outputs.map (List.countP p)).min (r.map_outputs_ne_nil _)

/-- How many symbols of a kind there are in the output that has the most. -/
def most (r : Rule) (p : Char → Bool) : Nat :=
  (r.outputs.map (List.countP p)).max (r.map_outputs_ne_nil _)

variable (r : Rule) (p : Char → Bool)

theorem fewest_le {output : Word} (known : output ∈ r.outputs) : r.fewest p ≤ output.countP p :=
  List.min_le_of_mem (List.mem_map_of_mem known)

theorem le_most {output : Word} (known : output ∈ r.outputs) : output.countP p ≤ r.most p :=
  List.le_max_of_mem (List.mem_map_of_mem known)

theorem outputAt_mem (k : Nat) (s : σ) : r.outputAt k s ∈ r.outputs := List.get_mem ..

/-- Each occurrence of the input brings in one of the outputs, so their extremes bound the sum. -/
theorem countP_substitute_mem (w : Word) (s : σ) :
    let passed := w.countP fun symbol => symbol != r.input && p symbol
    (r.substitute w s).1.countP p ∈
      Set.Icc (passed + w.count r.input * r.fewest p) (passed + w.count r.input * r.most p) := by
  have least := Finset.card_nsmul_le_sum (Finset.range (w.count r.input))
    (fun k => (r.outputAt k s).countP p) (r.fewest p)
    fun k _ => r.fewest_le p (r.outputAt_mem k s)
  have greatest := Finset.sum_le_card_nsmul (Finset.range (w.count r.input))
    (fun k => (r.outputAt k s).countP p) (r.most p) fun k _ => r.le_most p (r.outputAt_mem k s)
  rw [Finset.card_range, smul_eq_mul] at least greatest
  rw [countP_substitute]
  exact ⟨Nat.add_le_add_left least _, Nat.add_le_add_left greatest _⟩

/-- No occurrence of the input is passed over. -/
theorem count_input_substitute_mem (w : Word) (s : σ) :
    (r.substitute w s).1.count r.input ∈
      Set.Icc (w.count r.input * r.fewest (· == r.input))
        (w.count r.input * r.most (· == r.input)) := by
  have none : w.countP (fun symbol => symbol != r.input && symbol == r.input) = 0 :=
    List.countP_eq_zero.mpr (by simp)
  have bounds := r.countP_substitute_mem (· == r.input) w s
  simp only [none, Nat.zero_add] at bounds
  exact bounds

/-- All symbols other than the input are passed over. -/
theorem count_others_substitute_mem (w : Word) (s : σ) :
    (r.substitute w s).1.countP (· != r.input) ∈
      Set.Icc (w.countP (· != r.input) + w.count r.input * r.fewest (· != r.input))
        (w.countP (· != r.input) + w.count r.input * r.most (· != r.input)) := by
  have bounds := r.countP_substitute_mem (· != r.input) w s
  simp only [Bool.and_self] at bounds
  exact bounds

end Rule

namespace Grammar

/-- The last iteration rewrites what those before it lead to, with the source that they leave. -/
theorem exists_wordAfter_succ (r : Rule) (n : Nat) (s : σ) (seed : Word) :
    ∃ t : σ, wordAfter [r] (n + 1) s seed = (r.substitute (wordAfter [r] n s seed) t).1 := by
  let before := (ofRules seed [r]).iterate n s
  have rules : before.1.rules = [r] := rules_iterate ..
  refine ⟨before.2, ?_⟩
  rw [wordAfter, iterate_add]
  show (substituteAll before.1.rules before.1.current before.2).1 = _
  rw [rules]
  rfl

theorem count_input_wordAfter_mem (r : Rule) (seed : Word) (n : Nat) (s : σ) :
    (wordAfter [r] n s seed).count r.input ∈
      Set.Icc (seed.count r.input * r.fewest (· == r.input) ^ n)
        (seed.count r.input * r.most (· == r.input) ^ n) := by
  induction n with
  | zero => simp [wordAfter, iterate, ofRules]
  | succ n ih =>
      obtain ⟨t, last⟩ := exists_wordAfter_succ r n s seed
      obtain ⟨least, greatest⟩ := r.count_input_substitute_mem (wordAfter [r] n s seed) t
      rw [last, pow_succ, pow_succ, ← Nat.mul_assoc, ← Nat.mul_assoc]
      exact ⟨(Nat.mul_le_mul_right _ ih.1).trans least,
        greatest.trans (Nat.mul_le_mul_right _ ih.2)⟩

theorem count_others_wordAfter_mem (r : Rule) (seed : Word) (n : Nat) (s : σ) :
    (wordAfter [r] n s seed).countP (· != r.input) ∈
      Set.Icc
        (seed.countP (· != r.input) + r.fewest (· != r.input) * seed.count r.input *
          ∑ k ∈ Finset.range n, r.fewest (· == r.input) ^ k)
        (seed.countP (· != r.input) + r.most (· != r.input) * seed.count r.input *
          ∑ k ∈ Finset.range n, r.most (· == r.input) ^ k) := by
  induction n with
  | zero => simp [wordAfter, iterate, ofRules]
  | succ n ih =>
      obtain ⟨t, last⟩ := exists_wordAfter_succ r n s seed
      obtain ⟨least, greatest⟩ := r.count_others_substitute_mem (wordAfter [r] n s seed) t
      -- The inputs that the last iteration finds are bounded in their turn.
      obtain ⟨inputs, inputsToo⟩ := count_input_wordAfter_mem r seed n s
      have brought := Nat.mul_le_mul_right (r.fewest (· != r.input)) inputs
      have broughtToo := Nat.mul_le_mul_right (r.most (· != r.input)) inputsToo
      rw [last, Finset.sum_range_succ, Finset.sum_range_succ, Nat.mul_add, Nat.mul_add]
      constructor
      · calc _ = _ + seed.count r.input * r.fewest (· == r.input) ^ n *
              r.fewest (· != r.input) := by ring
          _ ≤ _ := Nat.add_le_add ih.1 brought
          _ ≤ _ := least
      · calc _ ≤ _ := greatest
          _ ≤ _ := Nat.add_le_add ih.2 broughtToo
          _ = _ := by ring

/-- Whatever the source answers, a grammar of one rule derives from a word with so many inputs and
others a word whose inputs lie between powers of the least and the greatest number of inputs in an
output, and whose others lie between the sums that the least and the greatest number of others lead
to. Each of its symbols comes from the first word or from an output. -/
theorem chance_within_bounds (r : Rule) (seed : Word) (n : Nat) (s : σ) :
    (wordAfter [r] n s seed).count r.input ∈
        Set.Icc (seed.count r.input * r.fewest (· == r.input) ^ n)
          (seed.count r.input * r.most (· == r.input) ^ n) ∧
      (wordAfter [r] n s seed).countP (· != r.input) ∈
        Set.Icc
          (seed.countP (· != r.input) + r.fewest (· != r.input) * seed.count r.input *
            ∑ k ∈ Finset.range n, r.fewest (· == r.input) ^ k)
          (seed.countP (· != r.input) + r.most (· != r.input) * seed.count r.input *
            ∑ k ∈ Finset.range n, r.most (· == r.input) ^ k) ∧
      ∀ symbol ∈ wordAfter [r] n s seed,
        symbol ∈ seed ∨ ∃ output ∈ r.outputs, symbol ∈ output := by
  refine ⟨count_input_wordAfter_mem r seed n s, count_others_wordAfter_mem r seed n s, ?_⟩
  intro symbol member
  rcases mem_iterate (ofRules seed [r]) n s member with fromSeed | ⟨r', known, fromOutput⟩
  · exact .inl fromSeed
  · rw [List.mem_singleton.mp known] at fromOutput
    exact .inr fromOutput

/-- A tip may branch, end in a leaf or fall off: the tips may die out, or double every time. -/
example :
    let tip : Rule := ⟨'F', "F[+F]".toList, ["L".toList, []]⟩
    tip.fewest (· == 'F') = 0 ∧ tip.most (· == 'F') = 2 ∧ tip.fewest (· != 'F') = 0 ∧
      tip.most (· != 'F') = 3 := by decide

end Grammar

end Tendril
