import Tendril.Proofs.Guarded.Grammar
import Tendril.Proofs.Plan.Json

/-!
# Where rules come from

A rule can be made of an input and its outputs, of a single output, of a draft, or of a text. All of
these ask for a draft, and give the rule with its input and outputs if there are any; none of them
lets a draft without outputs through, which is the only draft that nothing can be picked from.
-/

namespace Tendril

/-- Nothing can be picked from a draft without outputs, and from any other draft something can,
whatever the source. -/
theorem RuleDraft.pick?_eq_none_iff {σ : Type} [WordSource σ] {d : RuleDraft} (s : σ) :
    d.pick? s = none ↔ d.outputs = [] := by
  obtain ⟨input, outputs⟩ := d
  cases outputs with
  | nil => exact ⟨fun _ => rfl, fun _ => rfl⟩
  | cons first others =>
      have picked := (⟨input, first, others⟩ : Rule).pick?_draft s
      constructor
      · intro stuck
        cases stuck.symm.trans picked
      · intro bare
        cases bare

/-- A run that cannot do without a rule goes on with the same one. -/
theorem RuleDraft.toOption_rule {α : Type} (d : RuleDraft) :
    (d.rule : Except (Failure α) Rule).toOption = d.rule? := by
  rw [rule]
  cases d.rule? <;> rfl

theorem RuleDraft.rule?_eq_some_iff {d : RuleDraft} {r : Rule} :
    d.rule? = some r ↔ r.draft = d := by
  rw [← rule_eq_ok_iff (α := Float), rule]
  cases d.rule? <;> simp

theorem RuleDraft.rule?_eq_none_iff {d : RuleDraft} : d.rule? = none ↔ d.outputs = [] := by
  obtain ⟨input, outputs⟩ := d
  cases outputs with
  | nil => exact ⟨fun _ => rfl, fun _ => rfl⟩
  | cons output rest => simp [rule?]

namespace Rule

theorem draft_eq_iff {r : Rule} {d : RuleDraft} :
    r.draft = d ↔ r.input = d.input ∧ r.outputs = d.outputs := by
  obtain ⟨input, outputs⟩ := d
  rw [draft, RuleDraft.mk.injEq]

/-- The ways to come by a rule, each with what it takes. -/
inductive Origin where
  | ofOutputs (input : Char) (outputs : List Word)
  | simple (input : Char) (output : Word)
  /-- A draft that is used up. -/
  | given (draft : RuleDraft)
  /-- A draft that is only looked at. -/
  | lent (draft : RuleDraft)
  | spelled (text : String)

namespace Origin

/-- The draft that is asked for, which a text may fail to spell. -/
def draft? : Origin → Option RuleDraft
  | ofOutputs input outputs => some ⟨input, outputs⟩
  | simple input output => some (.simple input output)
  | given draft | lent draft => some draft
  | spelled text => Json.decode? RuleDraft.ofJson? text

/-- The rule that one comes by, if any. -/
def rule? : Origin → Option Rule
  | ofOutputs input outputs => (RuleDraft.rule ⟨input, outputs⟩ : Except (Failure Float) _).toOption
  | simple input output => some (.simple input output)
  | given draft | lent draft => (draft.rule : Except (Failure Float) _).toOption
  | spelled text => Json.decode? Rule.ofJson? text

/-- All ways lead through the draft. -/
theorem rule?_eq (o : Origin) : o.rule? = o.draft?.bind RuleDraft.rule? := by
  cases o with
  | ofOutputs input outputs => exact RuleDraft.toOption_rule _
  | simple input output => rfl
  | given draft => exact draft.toOption_rule
  | lent draft => exact draft.toOption_rule
  | spelled text =>
      show (Json.read? text).bind Rule.ofJson? =
        ((Json.read? text).bind RuleDraft.ofJson?).bind RuleDraft.rule?
      rw [Option.bind_assoc]
      rfl

theorem rule?_eq_some_iff {o : Origin} {r : Rule} : o.rule? = some r ↔ o.draft? = some r.draft := by
  rw [rule?_eq, Option.bind_eq_some_iff]
  constructor
  · rintro ⟨d, asked, made⟩
    rw [asked, RuleDraft.rule?_eq_some_iff.mp made]
  · intro asked
    exact ⟨r.draft, asked, RuleDraft.rule?_eq_some_iff.mpr rfl⟩

end Origin

/-- A rule comes back from the text that it is written to. -/
theorem decode?_write (r : Rule) : Json.decode? ofJson? r.json.write = some r := by
  rw [Json.decode?_write]
  show (RuleDraft.ofJson? r.draft.json).bind RuleDraft.rule? = some r
  rw [RuleDraft.ofJson?_json, Option.bind_some]
  exact RuleDraft.rule?_eq_some_iff.mpr rfl

/-- However one comes by a rule, it is that of a draft with outputs, and the draft decides which one
it is: every way gives the same rule for it, or refuses it, namely if it has no outputs. So a text
spells a rule just where it spells a draft with outputs, and a rule comes back from its own text. In
the end a pick always finds something: the drafts from which nothing can be picked are refused. -/
theorem origins_agree :
    (∀ (o : Origin) (r : Rule), o.rule? = some r →
      1 ≤ r.outputs.length ∧ ∃ d, o.draft? = some d ∧ r.input = d.input ∧ r.outputs = d.outputs) ∧
      (∀ (o o' : Origin) (d : RuleDraft), o.draft? = some d → o'.draft? = some d →
        o.rule? = o'.rule? ∧ (o.rule? = none ↔ d.outputs = [])) ∧
      (∀ (text : String) (r : Rule), Json.decode? ofJson? text = some r ↔
        ∃ d, Json.decode? RuleDraft.ofJson? text = some d ∧ d.outputs ≠ [] ∧
          r.input = d.input ∧ r.outputs = d.outputs) ∧
      (∀ r : Rule, Json.decode? ofJson? r.json.write = some r) ∧
      ∀ (o : Origin) (d : RuleDraft), o.draft? = some d → ∀ {σ : Type} [WordSource σ] (s : σ),
        d.pick? s = o.rule?.map fun r => r.pick s := by
  have made : ∀ (o : Origin) (d : RuleDraft), o.draft? = some d → o.rule? = d.rule? := by
    intro o d asked
    rw [Origin.rule?_eq, asked, Option.bind_some]
  refine ⟨?_, ?_, ?_, decode?_write, ?_⟩
  · intro o r found
    exact ⟨Nat.le_add_left 1 r.others.length, r.draft, Origin.rule?_eq_some_iff.mp found, rfl, rfl⟩
  · intro o o' d asked asked'
    rw [made o d asked, made o' d asked']
    exact ⟨rfl, RuleDraft.rule?_eq_none_iff⟩
  · intro text r
    have through : Json.decode? ofJson? text = some r ↔
        Json.decode? RuleDraft.ofJson? text = some r.draft :=
      Origin.rule?_eq_some_iff (o := .spelled text)
    rw [through]
    constructor
    · intro spelled
      exact ⟨r.draft, spelled, List.cons_ne_nil _ _, rfl, rfl⟩
    · rintro ⟨d, spelled, _, same⟩
      rw [spelled, draft_eq_iff.mpr same]
  · intro o d asked σ _ s
    rw [made o d asked]
    cases drafted : d.rule? with
    | none => exact (RuleDraft.pick?_eq_none_iff s).mpr (RuleDraft.rule?_eq_none_iff.mp drafted)
    | some r =>
        rw [← RuleDraft.rule?_eq_some_iff.mp drafted]
        exact r.pick?_draft s

/-- A text with the fields in another order and one that no draft has. -/
def willow : String := "\x7b\"outputs\": [\"F+F\", \"\"], \"bark\": null, \"input\": \"F\"\x7d"

/-- A text of a draft without outputs. -/
def stump : String := "\x7b\"input\":\"F\",\"outputs\":[]\x7d"

theorem willow_origins_agree :
    (∃ d, (Origin.spelled willow).draft? = some d ∧
      Json.decode? ofJson? willow = (Origin.ofOutputs 'F' [['F', '+', 'F'], []]).rule? ∧
      (Origin.lent d).rule? = some ⟨'F', ['F', '+', 'F'], [[]]⟩) ∧
      Json.decode? ofJson? stump = none ∧
      Json.decode? ofJson? (json ⟨'"', ['\\', '😀'], [[], ['\n']]⟩).write =
        some ⟨'"', ['\\', '😀'], [[], ['\n']]⟩ ∧
      (RuleDraft.mk 'F' []).pick? (Script.ofList []) = none := by
  obtain ⟨_, agree, _, written, pick⟩ := origins_agree
  have asked : (Origin.spelled willow).draft? = some ⟨'F', [['F', '+', 'F'], []]⟩ := by
    decide +kernel
  have bare : (Origin.spelled stump).draft? = some ⟨'F', []⟩ := by decide +kernel
  have refused : (Origin.spelled stump).rule? = none :=
    (agree (.spelled stump) (.spelled stump) _ bare bare).2.mpr rfl
  refine ⟨⟨_, asked, (agree (.spelled willow) (.ofOutputs 'F' _) _ asked rfl).1, rfl⟩, refused,
    written _, ?_⟩
  rw [pick (.spelled stump) _ bare, refused, Option.map_none]

end Rule

end Tendril
