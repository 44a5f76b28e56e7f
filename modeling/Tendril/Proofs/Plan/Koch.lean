import Mathlib.Algebra.Ring.GeomSum
import Tendril.Proofs.Guarded.Device
import Tendril.Proofs.Plan.Reading

/-!
# The closed curve

Every iteration of the closed curve puts eight segments, and turns between them, in the place of
each, so its word can be counted without being derived. The word has no brackets, which leaves turns
as the only thing that can fail. A device may ask for the curve by name or by the text of its plan:
the two ways join the segments at different places, and come to the same mesh.
-/

namespace Tendril

variable {σ ρ : Type} [WordSource σ] [WordSource ρ]

namespace GrowthPlan

/-! ## The word -/

/-- What becomes of a segment of the curve. -/
def bend : Rule := .simple 'F' "F^F&F&FF^F^F&F".toList

/-- The word of the curve after a number of iterations. -/
def kochWord (n : Nat) : Word := (Grammar.image [bend])^[n] "F^F^F^F".toList

theorem expand_koch {α : Type} [Scalar α] (n : UInt64) (source : σ) :
    (koch n : GrowthPlan α).expand source = .ok (kochWord n.toNat) :=
  expand_of_rule (r := bend) rfl rfl source

/-- The segments and the turns at first, and those that a segment becomes. -/
theorem bend_counts :
    ("F^F^F^F".toList.count 'F' = 4 ∧ "F^F^F^F".toList.countP (· != 'F') = 3) ∧
      bend.first.count 'F' = 8 ∧ bend.first.countP (· != 'F') = 6 := by decide

theorem count_kochWord (n : Nat) : (kochWord n).count 'F' = 4 * 8 ^ n := by
  obtain ⟨⟨segments, _⟩, more, _⟩ := bend_counts
  have counted := Grammar.count_input_iterate bend "F^F^F^F".toList n
  rw [show bend.input = 'F' from rfl, segments, more] at counted
  exact counted

/-- There are three turns at first, and six more for each segment that is replaced. -/
theorem length_kochWord (n : Nat) :
    (kochWord n).length = 4 * 8 ^ n + 3 + 6 * 4 * (8 ^ n - 1) / 7 := by
  have ahead := count_kochWord n
  have turns : (kochWord n).countP (· != 'F') = 3 + 4 * 6 * ∑ k ∈ Finset.range n, 8 ^ k := by
    obtain ⟨⟨segments, between⟩, more, moreBetween⟩ := bend_counts
    have counted := Grammar.count_passed_iterate bend "F^F^F^F".toList n
    rw [show bend.input = 'F' from rfl, segments, between, more, moreBetween] at counted
    exact counted
  have powers : (∑ k ∈ Finset.range n, 8 ^ k) * 7 + 1 = 8 ^ n := geom_sum_mul_add 7 n
  have split : (kochWord n).length =
      (kochWord n).count 'F' + (kochWord n).countP (· != 'F') := by
    rw [List.length_eq_countP_add_countP (· == 'F'), List.count]
    congr 2
    funext symbol
    by_cases ahead : symbol = 'F' <;> simp [ahead]
  omega

/-- The curve has no branches. -/
theorem not_mem_kochWord (n : UInt64) : ']' ∉ kochWord n.toNat := by
  intro member
  have grown := expand_koch (α := Float) n (Script.ofList [])
  rcases mem_expand grown member with first | ⟨d, rule, output, only, put⟩
  · have start : ']' ∉ "F^F^F^F".toList := by decide
    exact start first
  · obtain rfl := List.mem_singleton.mp rule
    obtain rfl := List.mem_singleton.mp only
    exact absurd put (by decide)

/-! ## The segments -/

variable {n : UInt64} {source : σ}

theorem segments_koch {segments : List (Mesh Float)}
    (carried : (koch n : GrowthPlan Float).segments source = .ok segments) :
    segments.length = 4 * 8 ^ n.toNat ∧ ∀ m ∈ segments, TubeStyle.standard.Draws m ∧
      m.vertexCount = 20 ∧ m.edgeCount = 30 ∧ m.quadCount = 10 := by
  obtain ⟨w, grown, count, tubes⟩ := segments_eq_ok carried
  cases (expand_koch n source).symm.trans grown
  rw [count_kochWord] at count
  exact ⟨count, fun m member => ⟨tubes m member, (tubes m member).counts⟩⟩

/-- A turn in the word that the turtle of the plan cannot make where it comes to it. -/
def TurnFails (p : GrowthPlan Float) (w : Word) : Prop :=
  ∃ t u symbol v axis sense, p.turtle = .ok t ∧ w = u ++ symbol :: v ∧
    (t.draw u).failure = none ∧ Command.ofSymbol? symbol = some (.turn axis sense) ∧
    (t.draw u).turtle.turn axis sense = .error .noDirection

/-- A word that closes no branch fails in a turn or not at all. -/
theorem turnFails_of_wordFault {p : GrowthPlan Float} {w : Word} {failure : Failure Float}
    (grown : p.expand source = .ok w) (unclosed : ']' ∉ w)
    (stuck : p.wordFault? source = some failure) : failure = .noDirection ∧ p.TurnFails w := by
  rw [wordFault?, grown] at stuck
  split at stuck
  case h_1 t word made derived =>
    cases derived
    have drawable := Turtle.fault?_style_of_ofSettings made
    obtain ⟨u, symbol, v, parts, before, here⟩ := Drawing.fault?_eq_some_iff.mp stuck
    rw [← Drawing.after_failure rfl drawable] at before
    rw [Turtle.symbolFault?] at here
    split at here
    case h_1 pops =>
      obtain rfl := Command.ofSymbol?_eq_some_iff.mp pops
      rw [parts] at unclosed
      exact absurd (List.mem_append_right u List.mem_cons_self) unclosed
    case h_2 axis sense turns =>
      obtain rfl := eq_of_lack here
      refine ⟨rfl, t, u, symbol, v, axis, sense, made, parts, before, turns, ?_⟩
      rw [Turtle.turn_eq, bind_eq_error_iff]
      exact .inl (failure?_eq_some_iff.mp ((Frame.failure?_turn ..).trans here))
    case h_3 => cases here
  case h_2 => cases stuck

/-- All checks but the one of the word are passed by the curve. -/
theorem fault?_koch : (koch n : GrowthPlan Float).fault? source = (koch n).wordFault? source := by
  have complete : (koch n : GrowthPlan Float).outputFault? = none := rfl
  have inRange : (koch n : GrowthPlan Float).settingFault? = none := by
    show (koch 0 : GrowthPlan Float).settingFault? = none
    decide +kernel
  have square : Frame.directionFault? (koch n : GrowthPlan Float).tangent (koch n).normal =
      none := by
    show Frame.directionFault? .unitX .unitY = none
    decide +kernel
  exact fault?_eq_wordFault? complete inRange square source

theorem segments_koch_error {failure : Failure Float}
    (failed : (koch n : GrowthPlan Float).segments source = .error failure) :
    failure = .noDirection ∧ (koch n : GrowthPlan Float).TurnFails (kochWord n.toNat) := by
  rw [← failure?_eq_some_iff, failure?_segments, fault?_koch] at failed
  exact turnFails_of_wordFault (expand_koch n source) (not_mem_kochWord _) failed

theorem numbered_koch (few : 80 * 8 ^ n.toNat < 2 ^ 32) :
    (koch n : GrowthPlan Float).Numbered source := by
  intro segments carried
  have around : (koch n : GrowthPlan Float).style.resolution.toNat = 10 := rfl
  rw [vertexCount_segments carried (expand_koch n source), count_kochWord, around]
  omega

end GrowthPlan

/-! ## The two ways to ask for it -/

namespace Device

/-- The curve has no doubles but those that all texts keep. -/
theorem growthPlan_koch (n : UInt64) :
    growthPlan (GrowthPlan.koch n : GrowthPlan Float).json.write = .ok (.koch n) := by
  refine (decodes_growthPlan.write GrowthPlan.encodes (.koch n)).1 ?_
  show ∀ x ∈ (GrowthPlan.koch 0 : GrowthPlan Float).floats, Kept x
  decide +kernel

/-- By name or by the text of its plan, the curve is the same mesh or the same report. -/
theorem growth_koch (i : UInt32) (s₁ : σ) (s₂ : ρ) :
    growth (GrowthPlan.koch i.toUInt64 : GrowthPlan Float).json.write s₂ =
      (koch i s₁).map fun f => ⟨#[f]⟩ := by
  have settled : (GrowthPlan.koch i.toUInt64 : GrowthPlan Float).Settled :=
    .inr (List.forall_mem_singleton.mpr (Nat.le_refl 1))
  rw [growth_eq (growthPlan_koch _), koch, settled.segments s₁ s₂]
  cases (GrowthPlan.koch i.toUInt64 : GrowthPlan Float).segments s₂ <;> rfl

/-- The word of the closed curve after any number of iterations, the tubes that are drawn for it,
what may keep it from being drawn, and that it does not matter in which of the two ways a device
asks for it, as long as all points can be numbered. -/
theorem koch_outcome (n : UInt64) (i : UInt32) (s₁ : σ) (s₂ : ρ) :
    (∃ w, (GrowthPlan.koch n : GrowthPlan Float).expand s₁ = .ok w ∧
        w.count 'F' = 4 * 8 ^ n.toNat ∧
        w.length = 4 * 8 ^ n.toNat + 3 + 6 * 4 * (8 ^ n.toNat - 1) / 7 ∧
        (∀ segments, (GrowthPlan.koch n : GrowthPlan Float).segments s₁ = .ok segments →
          segments.length = 4 * 8 ^ n.toNat ∧ ∀ m ∈ segments, TubeStyle.standard.Draws m ∧
            m.vertexCount = 20 ∧ m.edgeCount = 30 ∧ m.quadCount = 10) ∧
        ∀ failure, (GrowthPlan.koch n : GrowthPlan Float).segments s₁ = .error failure →
          failure = .noDirection ∧ (GrowthPlan.koch n : GrowthPlan Float).TurnFails w) ∧
      (80 * 8 ^ i.toNat < 2 ^ 32 →
        (koch? i s₁).run = some (koch i s₁) ∧
          (growth? (GrowthPlan.koch i.toUInt64 : GrowthPlan Float).json.write s₂).run =
            some (growth (GrowthPlan.koch i.toUInt64 : GrowthPlan Float).json.write s₂) ∧
          growth (GrowthPlan.koch i.toUInt64 : GrowthPlan Float).json.write s₂ =
            (koch i s₁).map fun f => ⟨#[f]⟩) := by
  refine ⟨⟨GrowthPlan.kochWord n.toNat, GrowthPlan.expand_koch n s₁, GrowthPlan.count_kochWord _,
    GrowthPlan.length_kochWord _, fun _ => GrowthPlan.segments_koch,
    fun _ => GrowthPlan.segments_koch_error⟩, fun few => ?_⟩
  rw [← UInt32.toNat_toUInt64] at few
  refine ⟨koch?_eq (GrowthPlan.numbered_koch few), growth?_eq fun p read => ?_,
    growth_koch i s₁ s₂⟩
  cases (growthPlan_koch _).symm.trans read
  have around : (GrowthPlan.koch i.toUInt64 : GrowthPlan Float).style.resolution.toNat = 10 := rfl
  refine ⟨?_, GrowthPlan.numbered_koch few⟩
  rw [around]
  decide

theorem koch_outcome_twice :
    80 * 8 ^ (2 : UInt32).toNat < 2 ^ 32 ∧
      (∃ w, (GrowthPlan.koch 2 : GrowthPlan Float).expand (Script.ofList []) = .ok w ∧
        w.count 'F' = 256 ∧ w.length = 475) ∧
      (koch? 2 (Script.ofList [])).run = some (koch 2 (Script.ofList [])) ∧
      growth (GrowthPlan.koch 2 : GrowthPlan Float).json.write (Script.ofList [7]) =
        (koch 2 (Script.ofList [])).map fun f => ⟨#[f]⟩ := by
  have few : 80 * 8 ^ (2 : UInt32).toNat < 2 ^ 32 := by decide
  obtain ⟨⟨w, grown, count, length, _⟩, same⟩ :=
    koch_outcome 2 2 (Script.ofList []) (Script.ofList [7])
  obtain ⟨guarded, _, agree⟩ := same few
  exact ⟨few, ⟨w, grown, count, length⟩, guarded, agree⟩

end Device

end Tendril
