import Mathlib.Algebra.BigOperators.Intervals
import Mathlib.Algebra.Group.Action.Defs
import Mathlib.Tactic.Ring
import Tendril.Proofs.Grammar.InTurn

/-!
# Which symbols, and how many

A symbol of a derived word comes from the first word or from an output, whatever the source
answers. A rule takes its input out of a word and puts an output in for each, so what there was
before and what the source chooses say what there is afterwards. With one output nothing is chosen:
where there is no other rule, the inputs are multiplied each time, and the symbols that are passed
over add up.
-/

namespace Tendril

variable {σ : Type} [WordSource σ]

/-! ## Where symbols come from -/

theorem Rule.mem_substitute (r : Rule) {w : Word} {s : σ} {symbol : Char}
    (member : symbol ∈ (r.substitute w s).1) :
    symbol ∈ w ∨ ∃ output ∈ r.outputs, symbol ∈ output := by
  induction w generalizing s with
  | nil => exact .inl member
  | cons first w ih =>
      have onward : ∀ s : σ, symbol ∈ (r.substitute w s).1 →
          symbol ∈ first :: w ∨ ∃ output ∈ r.outputs, symbol ∈ output :=
        fun s later => (ih later).imp_left (List.mem_cons_of_mem first)
      by_cases isInput : first = r.input
      · subst isInput
        rw [substitute_cons_input, List.mem_append] at member
        rcases member with put | later
        · exact .inr ⟨_, r.pick_mem s, put⟩
        · exact onward _ later
      · rw [substitute_cons_other r isInput, List.mem_cons] at member
        rcases member with rfl | later
        · exact .inl List.mem_cons_self
        · exact onward _ later

theorem Grammar.mem_iterate (g : Grammar) (n : Nat) (s : σ) {symbol : Char}
    (member : symbol ∈ (g.iterate n s).1.current) :
    symbol ∈ g.current ∨ ∃ r ∈ g.rules, ∃ output ∈ r.outputs, symbol ∈ output := by
  refine iterate_keeps
    (P := fun w => ∀ symbol ∈ w,
      symbol ∈ g.current ∨ ∃ r ∈ g.rules, ∃ output ∈ r.outputs, symbol ∈ output)
    g ?_ n s (fun _ given => .inl given) symbol member
  intro r known w s' kept symbol put
  rcases r.mem_substitute put with before | fromOutput
  · exact kept symbol before
  · exact .inr ⟨r, known, fromOutput⟩

/-! ## How many there are -/

/-- The symbols of a kind are those that the rule passes over, and those in the outputs that the
source chooses, one for each occurrence of the input. -/
theorem Rule.countP_substitute (r : Rule) (p : Char → Bool) (w : Word) (s : σ) :
    (r.substitute w s).1.countP p =
      w.countP (fun symbol => symbol != r.input && p symbol) +
        ∑ k ∈ Finset.range (w.count r.input), (r.outputAt k s).countP p := by
  induction w generalizing s with
  | nil => simp [substitute]
  | cons symbol w ih =>
      by_cases isInput : symbol = r.input
      · subst isInput
        rw [substitute_cons_input, pick_eq, List.countP_append, ih, List.count_cons_self,
          Finset.sum_range_succ', List.countP_cons_of_neg (by simp)]
        simp only [outputAt_succ]
        ring
      · have passed : (symbol != r.input && p symbol) = p symbol := by simp [isInput]
        rw [substitute_cons_other r isInput, List.countP_cons, ih, List.count_cons_of_ne isInput,
          List.countP_cons, passed]
        ring

/-- The image of a word has what the rule passes over, and the output as often as its input. -/
theorem Rule.countP_image (r : Rule) (p : Char → Bool) (w : Word) :
    (w.flatMap r.image).countP p =
      w.countP (fun symbol => symbol != r.input && p symbol) +
        w.count r.input * r.first.countP p := by
  -- Any source will do for the rule that has the first output alone.
  have single : (simple r.input r.first).Single := rfl
  have counted := (simple r.input r.first).countP_substitute p w (Script.ofList [])
  simp only [single.substitute, single.outputAt, Finset.sum_const, Finset.card_range,
    smul_eq_mul] at counted
  exact counted

namespace Grammar

variable (r : Rule) (w : Word) (n : Nat)

theorem count_input_iterate :
    ((image [r])^[n] w).count r.input = w.count r.input * r.first.count r.input ^ n := by
  induction n with
  | zero => simp
  | succ n ih =>
      rw [Function.iterate_succ_apply']
      show (((image [r])^[n] w).flatMap r.image).countP (· == r.input) = _
      have none : ((image [r])^[n] w).countP (fun symbol => symbol != r.input &&
          symbol == r.input) = 0 := List.countP_eq_zero.mpr (by simp)
      rw [r.countP_image, none, ih, pow_succ]
      show 0 + _ * r.first.count r.input = _
      ring

theorem count_passed_iterate :
    ((image [r])^[n] w).countP (· != r.input) =
      w.countP (· != r.input) + w.count r.input * r.first.countP (· != r.input) *
        ∑ k ∈ Finset.range n, r.first.count r.input ^ k := by
  induction n with
  | zero => simp
  | succ n ih =>
      rw [Function.iterate_succ_apply']
      show (((image [r])^[n] w).flatMap r.image).countP (· != r.input) = _
      rw [r.countP_image, count_input_iterate, Finset.sum_range_succ]
      simp only [Bool.and_self]
      rw [ih]
      ring

end Grammar

end Tendril
