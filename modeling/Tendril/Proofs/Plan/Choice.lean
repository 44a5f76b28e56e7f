import Tendril.Proofs.Plan.Delivery

/-!
# Grammars without a choice

Rules with one output leave nothing to a source. A grammar of such rules can be asked for iterations
and reset any number of times, each time with another source: where it stands is told by its first
word, its rules and the iterations since it was last reset, and no source is drawn from on the way.
A plan with such rules therefore grows one word, whatever its seed.
-/

namespace Tendril

namespace Grammar

/-- What can be asked of a grammar: iterations from a source in some state, or to start over. -/
inductive Request : Type 1 where
  | iterate {σ : Type} [WordSource σ] (n : Nat) (source : σ)
  | reset

namespace Request

def isReset : Request → Bool
  | @iterate _ _ _ _ => false
  | reset => true

/-- The iterations that a request asks for. -/
def iterations : Request → Nat
  | @iterate _ _ n _ => n
  | reset => 0

/-- The iterations asked for behind the latest reset. -/
def sinceReset (requests : List Request) : Nat :=
  ((requests.reverse.takeWhile fun request => !request.isReset).map iterations).sum

@[simp] theorem sinceReset_nil : sinceReset [] = 0 := rfl

theorem sinceReset_iterate {σ : Type} [WordSource σ] (requests : List Request) (n : Nat)
    (source : σ) :
    sinceReset (requests ++ [.iterate n source]) = n + sinceReset requests := by
  simp [sinceReset, isReset, iterations]

theorem sinceReset_reset (requests : List Request) : sinceReset (requests ++ [.reset]) = 0 := by
  simp [sinceReset, isReset]

end Request

/-- The grammar once a request is carried out. -/
def answer (g : Grammar) : Request → Grammar
  | @Request.iterate _ _ n source => (g.iterate n source).1
  | .reset => g.reset

/-- The grammar that a number of iterations without a choice leads to. -/
def derived (seed : Word) (rules : List Rule) (n : Nat) : Grammar :=
  { seed, rules, current := (image rules)^[n] seed, iterations := n }

variable {rules : List Rule}

/-- Further iterations lead on from where the grammar stands, and leave the source as it was. -/
theorem iterate_derived (single : ∀ r ∈ rules, r.Single) (seed : Word) (k n : Nat) {σ : Type}
    [WordSource σ] (source : σ) :
    (derived seed rules k).iterate n source = (derived seed rules (n + k), source) := by
  have onward : (image rules)^[n] ((image rules)^[k] seed) = (image rules)^[n + k] seed :=
    (Function.iterate_add_apply _ n k seed).symm
  rw [iterate_single single]
  simp only [derived, onward, Nat.add_comm k n]

/-- Whatever was asked before, the grammar stands where the iterations since the latest reset lead. -/
theorem answer_all (single : ∀ r ∈ rules, r.Single) (seed : Word) (requests : List Request) :
    requests.foldl answer (ofRules seed rules) =
      derived seed rules (Request.sinceReset requests) := by
  induction requests using List.reverseRecOn with
  | nil => rfl
  | append_singleton requests request ih =>
      rw [List.foldl_append, ih]
      cases request with
      | iterate n source =>
          rw [Request.sinceReset_iterate]
          show ((derived seed rules (Request.sinceReset requests)).iterate n source).1 = _
          rw [iterate_derived single]
      | reset =>
          rw [Request.sinceReset_reset]
          rfl

end Grammar

namespace GrowthPlan

variable {α : Type}

/-- A plan whose rules have one output each has a grammar, and it is one without a choice. -/
theorem grammar_of_single {p : GrowthPlan α} (single : ∀ d ∈ p.rules, d.outputs.length = 1) :
    ∃ rules, rules.map Rule.draft = p.rules ∧ (∀ r ∈ rules, r.Single) ∧
      p.grammar = .ok (.ofRules p.seedWord rules) := by
  cases made : p.grammar with
  | error failure =>
      obtain ⟨d, found, _⟩ := grammar_eq_error_iff.mp made
      have empty : d.outputs = [] := by simpa using List.find?_some found
      have one := single d (List.mem_of_find?_eq_some found)
      rw [empty] at one
      cases one
  | ok g =>
      have choiceless := single_of_drafts made fun d member => Nat.le_of_eq (single d member)
      obtain ⟨rules, drafted, rfl⟩ := grammar_eq_ok_iff.mp made
      exact ⟨rules, drafted, choiceless, rfl⟩

/-- A grammar of rules with one output keeps its first word and its rules, counts the iterations
since it was last reset, and has the word that as many images under its rules lead to; it never
draws from the source that it is given. A plan with such rules grows the same word for every seed
and every source. -/
theorem choiceless {rules : List Rule} (single : ∀ r ∈ rules, r.Single) (seed : Word)
    (requests : List Grammar.Request) {p : GrowthPlan α}
    (simple : ∀ d ∈ p.rules, d.outputs.length = 1) :
    let g := requests.foldl Grammar.answer (.ofRules seed rules)
    rules.foldl Grammar.addRule (.ofRules seed []) = .ofRules seed rules ∧
      (g.seed = seed ∧ g.rules = rules ∧ g.iterations = Grammar.Request.sinceReset requests ∧
        g.current = (Grammar.image rules)^[g.iterations] seed ∧
        ∀ (σ : Type) [WordSource σ] (n : Nat) (source : σ), (g.iterate n source).2 = source) ∧
      ∃ own, own.map Rule.draft = p.rules ∧ (∀ r ∈ own, r.Single) ∧
        ∀ (seed : Option UInt64) (σ : Type) [WordSource σ] (source : σ),
          ({ p with seed } : GrowthPlan α).expand source =
            .ok ((Grammar.image own)^[p.iterations.toNat] p.seedWord) := by
  refine ⟨Grammar.foldl_addRule seed [] rules, ?_, ?_⟩
  · simp only [Grammar.answer_all single]
    refine ⟨rfl, rfl, rfl, rfl, fun σ _ n source => ?_⟩
    rw [Grammar.iterate_derived single]
  · obtain ⟨own, drafted, singleOwn, made⟩ := grammar_of_single simple
    refine ⟨own, drafted, singleOwn, fun seed σ _ source => ?_⟩
    have madeToo : ({ p with seed } : GrowthPlan α).grammar = .ok (.ofRules p.seedWord own) := made
    unfold expand
    rw [madeToo]
    -- The seed says which source is used, and neither of them has a part in the word.
    cases seed with
    | none =>
        show Except.ok ((Grammar.derived p.seedWord own 0).iterate _ source).1.current = _
        rw [Grammar.iterate_derived singleOwn]
        rfl
    | some seed =>
        show Except.ok
          ((Grammar.derived p.seedWord own 0).iterate _ (KeyStream.ofSeed seed)).1.current = _
        rw [Grammar.iterate_derived singleOwn]
        rfl

/-- A rule that doubles and a rule that hands back, the second of which sees what the first made. -/
def relay : List Rule := [.simple 'F' "F+G".toList, .simple 'G' "F".toList]

/-- Two iterations that are taken back, and two more from sources of different kinds. -/
def detour : List Grammar.Request :=
  [.iterate 2 (Script.ofList [7]), .reset, .iterate 1 (KeyStream.ofSeed 3),
    .iterate 1 (Script.ofList [])]

theorem relay_choiceless :
    (∀ r ∈ relay, r.Single) ∧ (∀ d ∈ (koch 1 : GrowthPlan Float).rules, d.outputs.length = 1) ∧
      (detour.foldl Grammar.answer (.ofRules "F".toList relay)).iterations = 2 ∧
      (detour.foldl Grammar.answer (.ofRules "F".toList relay)).current = "F+F+F+F".toList ∧
      (((detour.foldl Grammar.answer (.ofRules "F".toList relay)).iterate 3
        (Script.ofList [7, 8])).2).drawn = 0 ∧
      ({ koch 1 with seed := none } : GrowthPlan Float).expand (Script.ofList [7]) =
        ({ koch 1 with seed := some 9 } : GrowthPlan Float).expand (KeyStream.ofSeed 3) := by
  have single : ∀ r ∈ relay, r.Single := by
    intro r member
    simp only [relay, List.mem_cons, List.not_mem_nil, or_false] at member
    rcases member with rfl | rfl <;> rfl
  have simple : ∀ d ∈ (koch 1 : GrowthPlan Float).rules, d.outputs.length = 1 :=
    List.forall_mem_singleton.mpr rfl
  obtain ⟨_, ⟨_, _, iterations, current, still⟩, own, _, _, grown⟩ :=
    choiceless single "F".toList detour simple
  have twice : Grammar.Request.sinceReset detour = 2 := rfl
  refine ⟨single, simple, iterations.trans twice, ?_, ?_, ?_⟩
  · rw [current, iterations, twice]
    decide
  · rw [still]
    rfl
  · rw [grown, grown]

end GrowthPlan

end Tendril
