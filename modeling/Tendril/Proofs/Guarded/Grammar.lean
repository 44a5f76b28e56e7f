import Tendril.Plan.Growth
import Tendril.Proofs.Grammar.Draft
import Tendril.Proofs.Guarded.Basic

/-!
# Guarded derivations

A rule is kept here as it is written down, with a list of outputs from which one is drawn by its
place. Drawing makes sense for every rule that has an output, and a plan refuses all others before
the first iteration.
-/

namespace Tendril

open Guarded

variable {α σ : Type} [WordSource σ]

/-- The place of one of so many alternatives. -/
def WordSource.place? (count : Nat) (s : σ) : Option (Nat × σ) :=
  match count with
  | 0 => none
  | n + 1 =>
      let (i, s) := choose n s
      some (i.val, s)

namespace RuleDraft

/-- Lets a draft through if it has an output. -/
def checked (d : RuleDraft) : Except (Failure α) RuleDraft :=
  if d.outputs.isEmpty then .error (.misuse (.noOutputs d.input)) else .ok d

def pick? (d : RuleDraft) (s : σ) : Option (Word × σ) :=
  match d.outputs with
  | [only] => some (only, s)
  | outputs => do
      let (i, s) ← WordSource.place? outputs.length s
      return (← outputs[i]?, s)

def substituteSymbol? (d : RuleDraft) (done : Array Char × σ) (symbol : Char) :
    Option (Array Char × σ) :=
  if symbol = d.input then do
    let (output, s) ← d.pick? done.2
    return (done.1.appendList output, s)
  else some (done.1.push symbol, done.2)

def substitute? (d : RuleDraft) (w : Word) (s : σ) : Option (Word × σ) := do
  let (done, s) ← w.foldlM d.substituteSymbol? (#[], s)
  return (done.toList, s)

end RuleDraft

namespace Rule

/-- Every rule has an output to draw. -/
theorem pick?_draft (r : Rule) (s : σ) : r.draft.pick? s = some (r.pick s) := by
  obtain ⟨input, first, others⟩ := r
  cases others with
  | nil => rfl
  | cons second others =>
      have inside : (first :: second :: others)[(WordSource.choose (others.length + 1) s).1.val]? =
          some ((first :: second :: others).get (WordSource.choose (others.length + 1) s).1) :=
        List.getElem?_eq_getElem (Fin.isLt _)
      show ((first :: second :: others)[(WordSource.choose (others.length + 1) s).1.val]?.bind
        fun output => some (output, (WordSource.choose (others.length + 1) s).2)) = _
      rw [inside]
      rfl

theorem substitute?_draft (r : Rule) (w : Word) (s : σ) :
    r.draft.substitute? w s = some (r.substitute w s) := by
  have sound : ∀ symbol ∈ w, ∀ done : Array Char × σ,
      r.draft.substituteSymbol? done symbol = some (r.substituteSymbol done symbol) := by
    intro symbol _ done
    rw [RuleDraft.substituteSymbol?, substituteSymbol, pick?_draft]
    exact (apply_ite some (symbol = r.input) _ _).symm
  rw [RuleDraft.substitute?, foldlM_eq_some sound]
  rfl

end Rule

namespace Grammar

def substituteAll? (rules : List RuleDraft) (w : Word) (s : σ) : Option (Word × σ) :=
  rules.foldlM (fun (w, s) d => d.substitute? w s) (w, s)

/-- A number of iterations, after as many as were `done`. -/
def iterate? (rules : List RuleDraft) : Nat → Nat → Word → σ → Option (Word × σ)
  | 0, _, w, s => some (w, s)
  | n + 1, done, w, s => do
      let done ← size? (done + 1)
      let (w, s) ← substituteAll? rules w s
      iterate? rules n done w s

theorem substituteAll?_draft (rules : List Rule) (w : Word) (s : σ) :
    substituteAll? (rules.map Rule.draft) w s = some (substituteAll rules w s) := by
  rw [substituteAll?, List.foldlM_map]
  exact foldlM_eq_some (fun r _ b => r.substitute?_draft b.1 b.2) _

/-- Iterating makes sense as long as the iterations can be counted. -/
theorem iterate?_draft (g : Grammar) {n : Nat} (room : g.iterations + n < 2 ^ 64) (s : σ) :
    iterate? (g.rules.map Rule.draft) n g.iterations g.current s =
      some ((g.iterate n s).1.current, (g.iterate n s).2) := by
  induction n generalizing g s with
  | zero => rfl
  | succ n ih =>
      rw [iterate?, size?_of_lt (by omega), Option.bind_eq_bind, Option.bind_some,
        substituteAll?_draft, Option.bind_eq_bind, Option.bind_some]
      exact ih (g.step s).1 (by show g.iterations + 1 + n < 2 ^ 64; omega) (g.step s).2

end Grammar

namespace GrowthPlan

/-- The word that the rules of the plan come to. -/
def expand? (p : GrowthPlan α) (source : σ) : Guarded (Failure α) Word := do
  let rules ← sure (p.rules.mapM RuleDraft.checked)
  match p.seed with
  | some seed =>
      let (w, _) ← Grammar.iterate? rules p.iterations.toNat 0 p.seedWord (KeyStream.ofSeed seed)
      return w
  | none =>
      let (w, _) ← Grammar.iterate? rules p.iterations.toNat 0 p.seedWord source
      return w

end GrowthPlan

theorem RuleDraft.checked_eq (d : RuleDraft) :
    d.checked = (d.rule : Except (Failure α) Rule).map Rule.draft := by
  obtain ⟨input, outputs⟩ := d
  cases outputs <;> rfl

theorem RuleDraft.mapM_checked (drafts : List RuleDraft) :
    drafts.mapM checked = (drafts.mapM rule : Except (Failure α) (List Rule)).map
      (List.map Rule.draft) := by
  induction drafts with
  | nil => rfl
  | cons d drafts ih =>
      rw [List.mapM_cons, List.mapM_cons, checked_eq, ih]
      cases (d.rule : Except (Failure α) Rule) with
      | error failure => rfl
      | ok r => cases (drafts.mapM rule : Except (Failure α) (List Rule)) <;> rfl

/-- No plan breaks down before it has its word. -/
theorem GrowthPlan.expand?_eq (p : GrowthPlan α) (source : σ) :
    p.expand? source = sure (p.expand source) := by
  have room : 0 + p.iterations.toNat < 2 ^ 64 := by
    have word : p.iterations.toNat < 2 ^ 64 := p.iterations.toNat_lt
    omega
  unfold expand? expand grammar
  rw [RuleDraft.mapM_checked]
  cases drafted : (p.rules.mapM RuleDraft.rule : Except (Failure α) (List Rule)) with
  | error failure => rfl
  | ok rules =>
      -- The seed and the source are of different types, and it is the same run for both.
      have derived : ∀ {τ : Type} [WordSource τ] (s : τ),
          Grammar.iterate? (rules.map Rule.draft) p.iterations.toNat 0 p.seedWord s =
            some (((Grammar.ofRules p.seedWord rules).iterate p.iterations.toNat s).1.current,
              ((Grammar.ofRules p.seedWord rules).iterate p.iterations.toNat s).2) :=
        fun s => (Grammar.ofRules p.seedWord rules).iterate?_draft room s
      cases p.seed with
      | some seed => exact lift_bind (derived (KeyStream.ofSeed seed))
      | none => exact lift_bind (derived source)

end Tendril
