import Tendril.Proofs.Grammar.Symbols

/-!
# Growth adds up

What rules with one output make of a word is what they make of its parts, one behind the other, and
how often a symbol comes up in it is told by how often each symbol came up before, whatever the order
was. A tally carries these numbers through any number of iterations without a word being written
out, though the rules rewrite what others of them put in.
-/

namespace Tendril

variable {σ : Type} [WordSource σ]

/-- How often a symbol comes up once a rule with one output is applied, told from how often each came
up before: the input goes, and every occurrence of it brings in what the output has. -/
def Rule.tally (r : Rule) (count : Char → Nat) (symbol : Char) : Nat :=
  (if symbol = r.input then 0 else count symbol) + count r.input * r.first.count symbol

theorem Rule.count_image (r : Rule) (w : Word) (symbol : Char) :
    (w.flatMap r.image).count symbol = r.tally (fun c => w.count c) symbol := by
  show (w.flatMap r.image).countP (· == symbol) = _
  rw [r.countP_image, tally]
  congr 1
  by_cases isInput : symbol = r.input
  · subst isInput
    rw [if_pos rfl]
    exact List.countP_eq_zero.mpr (by simp)
  · rw [if_neg isInput]
    refine List.countP_congr fun c _ => ?_
    simp only [Bool.and_eq_true, bne_iff_ne, beq_iff_eq, and_iff_right_iff_imp]
    rintro rfl
    exact isInput

namespace Grammar

/-- How often symbols come up once all rules are applied, one after the other. -/
def tally (rules : List Rule) (count : Char → Nat) : Char → Nat :=
  rules.foldl (fun count r => r.tally count) count

theorem iterate_image_append (rules : List Rule) (n : Nat) (u v : Word) :
    (image rules)^[n] (u ++ v) = (image rules)^[n] u ++ (image rules)^[n] v := by
  induction n generalizing u v with
  | zero => rfl
  | succ n ih =>
      rw [Function.iterate_succ_apply, image_append, ih]
      rfl

/-- Counting behind an iteration is the same as keeping a tally through it. -/
theorem semiconj_count (rules : List Rule) :
    Function.Semiconj (fun (w : Word) (symbol : Char) => w.count symbol) (image rules)
      (tally rules) := by
  intro w
  induction rules generalizing w with
  | nil => rfl
  | cons r rules ih =>
      have first : (fun symbol => (w.flatMap r.image).count symbol) =
          r.tally (fun symbol => w.count symbol) := funext (r.count_image w)
      exact (ih (w.flatMap r.image)).trans (congrArg (tally rules) first)

theorem count_iterate_image (rules : List Rule) (n : Nat) (w : Word) (symbol : Char) :
    ((image rules)^[n] w).count symbol = (tally rules)^[n] (fun c => w.count c) symbol :=
  congrFun ((semiconj_count rules).iterate_right n w) symbol

/-- Words with the same symbols grow into words with the same symbols. -/
theorem perm_iterate_image (rules : List Rule) (n : Nat) {u v : Word} (same : u.Perm v) :
    ((image rules)^[n] u).Perm ((image rules)^[n] v) := by
  have before : (fun symbol => u.count symbol) = fun symbol => v.count symbol :=
    funext (List.perm_iff_count.mp same)
  rw [List.perm_iff_count]
  intro symbol
  rw [count_iterate_image, count_iterate_image, before]

/-- With rules that have one output each, two words one behind the other grow into what each of them
grows into, one behind the other. How often a symbol comes up in the end is what the tally says that
starts with how often each comes up in the first word, so first words with the same symbols in
another order grow into words with the same symbols, and as long. -/
theorem growth_adds_up {rules : List Rule} (single : ∀ r ∈ rules, r.Single) (n : Nat) :
    (∀ (s s₁ s₂ : σ) (u v : Word),
      wordAfter rules n s (u ++ v) = wordAfter rules n s₁ u ++ wordAfter rules n s₂ v) ∧
      (∀ (s : σ) (seed : Word) (symbol : Char),
        (wordAfter rules n s seed).count symbol =
          (tally rules)^[n] (fun c => seed.count c) symbol) ∧
      ∀ (s₁ s₂ : σ) (u v : Word), u.Perm v →
        (∀ symbol, (wordAfter rules n s₁ u).count symbol =
          (wordAfter rules n s₂ v).count symbol) ∧
          (wordAfter rules n s₁ u).length = (wordAfter rules n s₂ v).length := by
  simp only [wordAfter_single single]
  refine ⟨fun _ _ _ u v => iterate_image_append rules n u v,
    fun _ seed symbol => count_iterate_image rules n seed symbol, fun _ _ u v same => ?_⟩
  have grown := perm_iterate_image rules n same
  exact ⟨List.perm_iff_count.mp grown, grown.length_eq⟩

/-- A bud grows, and branches into two; a stem doubles; a leaf falls off. The second and the third
rule rewrite what the first puts in, and the third what the second does. -/
def shrub : List Rule :=
  [.simple 'B' "S[LB]B".toList, .simple 'S' "SSL".toList, .simple 'L' []]

theorem shrub_growth_adds_up :
    (∀ r ∈ shrub, r.Single) ∧ "BSB".toList.Perm "BBS".toList ∧
      wordAfter shrub 3 (Script.ofList []) "BSB".toList =
        wordAfter shrub 3 (Script.ofList [7]) "BS".toList ++
          wordAfter shrub 3 (Script.ofList []) "B".toList ∧
      (wordAfter shrub 3 (Script.ofList []) "BSB".toList).count 'S' = 56 ∧
      (wordAfter shrub 3 (Script.ofList []) "BBS".toList).length =
        (wordAfter shrub 3 (Script.ofList [7]) "BSB".toList).length := by
  have single : ∀ r ∈ shrub, r.Single := by decide
  have same : "BSB".toList.Perm "BBS".toList := by decide
  obtain ⟨parts, counts, orders⟩ := growth_adds_up (σ := Script) single 3
  refine ⟨single, same, parts _ _ _ "BS".toList "B".toList, ?_, ?_⟩
  · rw [counts]
    decide
  · exact (orders _ _ _ _ same.symm).2

end Grammar

end Tendril
