import Tendril.Proofs.Grammar.Single

/-!
# Choices in turn

What a rule makes of a word, place by place: a symbol that is passed over stays, and the occurrence
of the input behind `k` others turns into the output that choice `k` names. The choices are those
that the source comes to one after the other, one for each occurrence, and none at all for a rule
with one output. A source that is handed on from part to part, or from iteration to iteration,
therefore makes the choices that it would make for the whole.
-/

namespace Tendril

variable {σ : Type} [WordSource σ]

namespace WordSource

/-- The source once so many choices among `n + 1` alternatives are made. -/
def after (n count : Nat) (s : σ) : σ := (fun s => (choose n s).2)^[count] s

/-- The choice among `n + 1` alternatives that comes behind so many others. -/
def choiceAt (n count : Nat) (s : σ) : Fin (n + 1) := (choose n (after n count s)).1

theorem after_succ (n count : Nat) (s : σ) :
    after n (count + 1) s = after n count (choose n s).2 :=
  Function.iterate_succ_apply _ count s

end WordSource

namespace Rule

/-- What the occurrence of the input behind so many others turns into. -/
def outputAt (r : Rule) (count : Nat) (s : σ) : Word :=
  r.outputs.get (WordSource.choiceAt r.others.length count s)

/-- The source that so many occurrences of the input leave. -/
def sourceAfter (r : Rule) (count : Nat) (s : σ) : σ :=
  if r.outputs.length = 1 then s else WordSource.after r.others.length count s

/-- What stands in the end for a place of a word. -/
def pieceAt (r : Rule) (w : Word) (s : σ) (p : Fin w.length) : Word :=
  if w[p] = r.input then r.outputAt ((w.take p).count r.input) s else [w[p]]

theorem single_iff (r : Rule) : r.Single ↔ r.outputs.length = 1 := by
  simp [Single, outputs]

theorem sourceAfter_zero (r : Rule) (s : σ) : r.sourceAfter 0 s = s := by
  unfold sourceAfter
  split <;> rfl

theorem Single.sourceAfter {r : Rule} (single : r.Single) (count : Nat) (s : σ) :
    r.sourceAfter count s = s :=
  if_pos (r.single_iff.mp single)

/-- Among one alternative there is one choice, whatever the source is. -/
theorem Single.outputAt {r : Rule} (single : r.Single) (count : Nat) (s : σ) :
    r.outputAt count s = r.first := by
  obtain ⟨input, first, others⟩ := r
  obtain rfl : others = [] := single
  have only : WordSource.choiceAt 0 count s = 0 := Fin.fin_one_eq_zero _
  simp [Rule.outputAt, outputs, only]

/-- The first occurrence takes the first choice. -/
theorem pick_eq (r : Rule) (s : σ) : r.pick s = (r.outputAt 0 s, r.sourceAfter 1 s) := by
  by_cases single : r.Single
  · rw [single.pick, single.outputAt, single.sourceAfter]
  · obtain ⟨input, first, others⟩ := r
    cases others with
    | nil => exact absurd rfl single
    | cons second others => rfl

/-- Behind the first occurrence, the source goes on as the first one leaves it. -/
theorem sourceAfter_succ (r : Rule) (count : Nat) (s : σ) :
    r.sourceAfter (count + 1) s = r.sourceAfter count (r.sourceAfter 1 s) := by
  by_cases one : r.outputs.length = 1
  · simp only [sourceAfter, if_pos one]
  · simp only [sourceAfter, if_neg one]
    exact WordSource.after_succ r.others.length count s

/-- Later occurrences take the choices of the source that the first one leaves. -/
theorem outputAt_succ (r : Rule) (count : Nat) (s : σ) :
    r.outputAt (count + 1) s = r.outputAt count (r.sourceAfter 1 s) := by
  by_cases single : r.Single
  · rw [single.outputAt, single.outputAt]
  · have several : r.outputs.length ≠ 1 := fun one => single (r.single_iff.mpr one)
    simp only [sourceAfter, if_neg several, outputAt, WordSource.choiceAt, WordSource.after_succ]
    rfl

/-! ## Place by place -/

/-- The first place comes in front of those behind it. -/
theorem flatMap_pieceAt_cons (r : Rule) (symbol : Char) (w : Word) (s : σ) :
    (List.finRange (symbol :: w).length).flatMap (r.pieceAt (symbol :: w) s) =
      (if symbol = r.input then r.outputAt 0 s else [symbol]) ++
        (List.finRange w.length).flatMap fun p => r.pieceAt (symbol :: w) s p.succ := by
  show (List.finRange (w.length + 1)).flatMap (r.pieceAt (symbol :: w) s) = _
  rw [List.finRange_succ, List.flatMap_cons, List.flatMap_map]
  rfl

/-- Behind an occurrence of the input the places are those of the rest, with the source that the
occurrence leaves. -/
theorem pieceAt_succ_input (r : Rule) (w : Word) (s : σ) (p : Fin w.length) :
    r.pieceAt (r.input :: w) s p.succ = r.pieceAt w (r.sourceAfter 1 s) p := by
  simp only [pieceAt, Fin.getElem_fin, Fin.val_succ, List.getElem_cons_succ, List.take_succ_cons,
    List.count_cons_self, outputAt_succ]

theorem pieceAt_succ_other (r : Rule) {symbol : Char} (other : symbol ≠ r.input) (w : Word)
    (s : σ) (p : Fin w.length) : r.pieceAt (symbol :: w) s p.succ = r.pieceAt w s p := by
  simp only [pieceAt, Fin.getElem_fin, Fin.val_succ, List.getElem_cons_succ, List.take_succ_cons,
    List.count_cons_of_ne other]

/-- A rule passes over a word once, and the choices that it makes on the way are the first ones of
the source, as many as it finds occurrences of its input. -/
theorem substitute_eq (r : Rule) (w : Word) (s : σ) :
    r.substitute w s =
      ((List.finRange w.length).flatMap (r.pieceAt w s), r.sourceAfter (w.count r.input) s) := by
  induction w generalizing s with
  | nil => simp [substitute, sourceAfter_zero]
  | cons symbol w ih =>
      rw [flatMap_pieceAt_cons]
      by_cases isInput : symbol = r.input
      · subst isInput
        simp only [pieceAt_succ_input, if_true]
        rw [substitute_cons_input, pick_eq, ih, List.count_cons_self,
          r.sourceAfter_succ (w.count r.input)]
      · simp only [pieceAt_succ_other r isInput]
        rw [substitute_cons_other r isInput, ih, List.count_cons_of_ne isInput, if_neg isInput,
          List.singleton_append]

/-! ## Part by part -/

/-- The second of two parts of a word is rewritten with the source that the first one leaves. -/
theorem substitute_append (r : Rule) (u v : Word) (s : σ) :
    r.substitute (u ++ v) s =
      ((r.substitute u s).1 ++ (r.substitute v (r.substitute u s).2).1,
        (r.substitute v (r.substitute u s).2).2) := by
  induction u generalizing s with
  | nil => rfl
  | cons symbol u ih =>
      rw [List.cons_append]
      by_cases isInput : symbol = r.input
      · subst isInput
        simp only [substitute_cons_input, ih, List.append_assoc]
      · simp only [substitute_cons_other r isInput, ih, List.cons_append]

end Rule

/-- Iterations go on from the word and the source that those before them leave. -/
theorem Grammar.iterate_add (g : Grammar) (a b : Nat) (s : σ) :
    g.iterate (a + b) s = (g.iterate a s).1.iterate b (g.iterate a s).2 := by
  induction a generalizing g s with
  | zero => rw [Nat.zero_add]; rfl
  | succ a ih =>
      rw [Nat.succ_add]
      exact ih (g.step s).1 (g.step s).2

/-- A word is rewritten in one pass from left to right: a symbol other than the input stays what it
is, and the occurrence of the input behind `j` others is replaced by the output that choice `j` of
the source names. The source makes one choice for each occurrence, and none if there is one output.
So the parts of a word can be rewritten one behind the other, each with the source that the one
before it leaves, and iterations can be made in two goes. -/
theorem Rule.substitute_in_turn (r : Rule) (s : σ) :
    (∀ w,
      (r.substitute w s).1 = (List.finRange w.length).flatMap (fun p : Fin w.length =>
        if w[p] = r.input then
          r.outputs.get (WordSource.choiceAt r.others.length ((w.take p).count r.input) s)
        else [w[p]]) ∧
      (r.outputs.length = 1 → (r.substitute w s).2 = s) ∧
      (2 ≤ r.outputs.length →
        (r.substitute w s).2 = WordSource.after r.others.length (w.count r.input) s)) ∧
      (∀ u v, r.substitute (u ++ v) s =
        ((r.substitute u s).1 ++ (r.substitute v (r.substitute u s).2).1,
          (r.substitute v (r.substitute u s).2).2)) ∧
      ∀ (g : Grammar) (a b : Nat),
        g.iterate (a + b) s = (g.iterate a s).1.iterate b (g.iterate a s).2 := by
  refine ⟨fun w => ?_, fun u v => r.substitute_append u v s, fun g a b => g.iterate_add a b s⟩
  rw [substitute_eq]
  refine ⟨rfl, fun one => if_pos one, fun several => if_neg ?_⟩
  omega

/-- The second occurrence takes the second choice, and the plus sign between them takes none. -/
example :
    let made := Rule.substitute ⟨'F', "FF".toList, ["G".toList]⟩ "F+F".toList
      (Script.ofList [0, 2 ^ 63])
    made.1 = "FF+G".toList ∧ made.2.drawn = 2 := by decide +kernel

end Tendril
