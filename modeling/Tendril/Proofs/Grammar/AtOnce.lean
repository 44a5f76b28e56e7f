import Mathlib.Data.List.Find
import Mathlib.Data.List.Nodup
import Tendril.Proofs.Grammar.Single

/-!
# Rules at once

A rule also rewrites what the rules before it have put in, so in general the order in which rules are
registered matters. Rules that keep apart, none of which puts in what another one rewrites, do not
notice each other: applied one after the other they make of a word what they would make of it at
once, and any order of them does.
-/

namespace Tendril

variable {σ : Type} [WordSource σ]

/-- Rules of which no two rewrite the same symbol, and none puts in what another one rewrites. -/
structure KeepApart (rules : List Rule) : Prop where
  inputs : (rules.map Rule.input).Nodup
  outputs : ∀ r ∈ rules, ∀ other ∈ rules, other ≠ r → ∀ output ∈ r.outputs, other.input ∉ output

instance (rules : List Rule) : Decidable (KeepApart rules) :=
  decidable_of_iff ((rules.map Rule.input).Nodup ∧ ∀ r ∈ rules, ∀ other ∈ rules, other ≠ r →
      ∀ output ∈ r.outputs, other.input ∉ output)
    ⟨fun h => ⟨h.1, h.2⟩, fun h => ⟨h.inputs, h.outputs⟩⟩

theorem KeepApart.tail {r : Rule} {rules : List Rule} (apart : KeepApart (r :: rules)) :
    KeepApart rules where
  inputs := (List.nodup_cons.mp apart.inputs).2
  outputs a known b other :=
    apart.outputs a (List.mem_cons_of_mem r known) b (List.mem_cons_of_mem r other)

theorem KeepApart.perm {rules permuted : List Rule} (apart : KeepApart rules)
    (order : permuted.Perm rules) : KeepApart permuted where
  inputs := (order.map Rule.input).nodup_iff.mpr apart.inputs
  outputs a known b other := apart.outputs a (order.mem_iff.mp known) b (order.mem_iff.mp other)

/-- What the first rule puts in, no later one rewrites. -/
theorem KeepApart.input_not_mem_first {r : Rule} {rules : List Rule}
    (apart : KeepApart (r :: rules)) : ∀ other ∈ rules, other.input ∉ r.first := by
  intro other known
  have fresh : r.input ∉ rules.map Rule.input := (List.nodup_cons.mp apart.inputs).1
  have differ : other ≠ r := by
    rintro rfl
    exact fresh (List.mem_map_of_mem known)
  exact apart.outputs r List.mem_cons_self other (List.mem_cons_of_mem r known) differ r.first
    List.mem_cons_self

namespace Grammar

variable {rules : List Rule}

/-- What a symbol turns into when the rules are applied at once: the output of the rule whose input
it is, or nothing else than itself. -/
def imageAtOnce (rules : List Rule) (symbol : Char) : Word :=
  match rules.find? fun r => r.input = symbol with
  | some r => r.first
  | none => [symbol]

/-- What has no input in it is passed over. -/
theorem image_of_foreign {w : Word} (foreign : ∀ r ∈ rules, r.input ∉ w) : image rules w = w := by
  induction rules with
  | nil => rfl
  | cons r rules ih =>
      have passed : w.flatMap r.image = w := by
        have kept : ∀ symbol ∈ w, r.image symbol = [symbol] := by
          intro symbol member
          refine if_neg ?_
          rintro rfl
          exact foreign r List.mem_cons_self member
        rw [List.flatMap_congr kept, List.flatMap_singleton']
      show image rules (w.flatMap r.image) = w
      rw [passed]
      exact ih fun other known => foreign other (List.mem_cons_of_mem r known)

/-- Only the rule whose input a symbol is has a part in what becomes of it. -/
theorem image_singleton (apart : KeepApart rules) (symbol : Char) :
    image rules [symbol] = imageAtOnce rules symbol := by
  induction rules with
  | nil => rfl
  | cons r rules ih =>
      show image rules ([symbol].flatMap r.image) = _
      rw [List.flatMap_singleton, Rule.image, imageAtOnce]
      by_cases isInput : symbol = r.input
      · rw [if_pos isInput, image_of_foreign apart.input_not_mem_first,
          List.find?_cons_of_pos (by simp [isInput])]
      · rw [if_neg isInput, ih apart.tail, List.find?_cons_of_neg (by simp [Ne.symm isInput])]
        rfl

theorem image_eq_flatMap (apart : KeepApart rules) (w : Word) :
    image rules w = w.flatMap (imageAtOnce rules) := by
  induction w with
  | nil => exact image_of_foreign fun _ _ => List.not_mem_nil
  | cons symbol w ih =>
      rw [← List.singleton_append, image_append, image_singleton apart, ih, List.flatMap_append,
        List.flatMap_singleton]

/-- Rules that are applied at once have no order. -/
theorem imageAtOnce_perm {permuted : List Rule} (apart : KeepApart rules)
    (order : permuted.Perm rules) : imageAtOnce permuted = imageAtOnce rules := by
  funext symbol
  have one : {r | r ∈ rules ∧ decide (r.input = symbol) = true}.Subsingleton := by
    rintro a ⟨known, isA⟩ b ⟨other, isB⟩
    have same : a.input = b.input := (of_decide_eq_true isA).trans (of_decide_eq_true isB).symm
    exact List.inj_on_of_nodup_map apart.inputs known other same
  unfold imageAtOnce
  rw [List.find?_eq_find?_of_perm order.symm one]

/-- Rules with one output that keep apart, applied one after the other in every iteration, derive the
words that they would derive if all symbols of a word were replaced at once. Registering them in
another order, one by one, makes no difference. -/
theorem in_turn_or_at_once (single : ∀ r ∈ rules, r.Single) (apart : KeepApart rules) (seed : Word)
    (n : Nat) :
    (∀ s : σ,
      wordAfter rules n s seed = (fun w : Word => w.flatMap (imageAtOnce rules))^[n] seed) ∧
      ∀ permuted : List Rule, permuted.Perm rules → ∀ s₁ s₂ : σ,
        ((permuted.foldl addRule (ofRules seed [])).iterate n s₁).1.current =
          wordAfter rules n s₂ seed := by
  have atOnce : ∀ {order : List Rule}, KeepApart order →
      image order = fun w => w.flatMap (imageAtOnce order) :=
    fun keep => funext (image_eq_flatMap keep)
  refine ⟨fun s => ?_, fun permuted order s₁ s₂ => ?_⟩
  · rw [wordAfter_single single, atOnce apart]
  · have singleToo : ∀ r ∈ permuted, r.Single := fun r known => single r (order.mem_iff.mp known)
    rw [foldl_addRule, List.nil_append]
    show wordAfter permuted n s₁ seed = _
    rw [wordAfter_single singleToo, wordAfter_single single, atOnce (apart.perm order),
      atOnce apart, imageAtOnce_perm apart order]

/-- A tip leaves a side branch behind, stems double, and the mark of a leaf is dropped. -/
def fern : List Rule :=
  [.simple 'X' "G[+X]X".toList, .simple 'F' "FF".toList, .simple 'L' []]

theorem fern_in_turn_or_at_once :
    (∀ r ∈ fern, r.Single) ∧ KeepApart fern ∧ fern.reverse.Perm fern ∧
      wordAfter fern 2 (Script.ofList []) "FXL".toList = "FFFFG[+G[+X]X]G[+X]X".toList ∧
      ((fern.reverse.foldl addRule (ofRules "FXL".toList [])).iterate 5
        (Script.ofList [7])).1.current = wordAfter fern 5 (Script.ofList []) "FXL".toList := by
  have single : ∀ r ∈ fern, r.Single := by decide
  have apart : KeepApart fern := by decide
  have order : fern.reverse.Perm fern := fern.reverse_perm
  refine ⟨single, apart, order, ?_,
    (in_turn_or_at_once single apart "FXL".toList 5).2 fern.reverse order _ _⟩
  rw [(in_turn_or_at_once single apart "FXL".toList 2).1]
  decide

end Grammar

end Tendril
