import Tendril.Plan.Device
import Tendril.Proofs.Grammar.Symbols
import Tendril.Proofs.Mesh.Flat
import Tendril.Proofs.Plan.Refusal
import Tendril.Proofs.Turtle.Segments

/-!
# One mesh or many

A growth plan can ask for its segments one by one or for all of them in one mesh. Where the word
does not hang on chance, a device is told the same failure either way, and otherwise is given the
same buffers: the one mesh holds those of the many, one behind the other. Counts go up to a limit,
though, and the edges of the one mesh can be too many for it when its points are not.
-/

namespace Tendril

variable {α σ ρ : Type} [WordSource σ] [WordSource ρ]

/-- Tubes of one style that are joined hold as much as one of them, as often as there are tubes. -/
theorem TubeStyle.counts_mergeAll [Scalar α] {style : TubeStyle α} {segments : List (Mesh α)}
    (tubes : ∀ m ∈ segments, style.Draws m) :
    (Mesh.mergeAll segments).vertexCount = 2 * style.resolution.toNat * segments.length ∧
      (Mesh.mergeAll segments).edgeCount = 3 * style.resolution.toNat * segments.length ∧
      (Mesh.mergeAll segments).quadCount = style.resolution.toNat * segments.length := by
  have total : ∀ {count : Mesh α → Nat} {each : Nat}, (∀ m ∈ segments, count m = each) →
      (segments.map count).sum = each * segments.length := by
    intro count each alike
    rw [List.map_congr_left alike, List.map_const', List.sum_replicate_nat, Nat.mul_comm]
  rw [Mesh.vertexCount_mergeAll, Mesh.edgeCount_mergeAll, Mesh.quadCount_mergeAll]
  exact ⟨total fun m member => (tubes m member).counts.1,
    total fun m member => (tubes m member).counts.2.1,
    total fun m member => (tubes m member).counts.2.2⟩

/-- A device counts all edges of each tube, but for enormous resolutions. -/
theorem TubeStyle.sum_edgeCount {style : TubeStyle Float} {segments : List (Mesh Float)}
    (tubes : ∀ m ∈ segments, style.Draws m) (few : 3 * style.resolution.toNat < 2 ^ 32) :
    ((segments.map FlatMesh.ofMesh).map (·.edgeCount.toNat)).sum =
      3 * style.resolution.toNat * segments.length := by
  have each : ∀ m ∈ segments, ((·.edgeCount.toNat) ∘ FlatMesh.ofMesh) m =
      3 * style.resolution.toNat := by
    intro m member
    show (FlatMesh.deviceCount m.edgeCount).toNat = _
    rw [(tubes m member).counts.2.1, FlatMesh.toNat_deviceCount_of_lt few]
  rw [List.map_map, List.map_congr_left each, List.map_const', List.sum_replicate_nat, Nat.mul_comm]

namespace GrowthPlan

/-- A plan that brings its own source, or leaves it nothing to choose. -/
def Settled (p : GrowthPlan α) : Prop :=
  p.seed.isSome ∨ ∀ d ∈ p.rules, d.outputs.length ≤ 1

theorem single_of_drafts {p : GrowthPlan α} {g : Grammar} (made : p.grammar = .ok g)
    (choiceless : ∀ d ∈ p.rules, d.outputs.length ≤ 1) : ∀ r ∈ g.rules, r.Single := by
  obtain ⟨rules, drafted, rfl⟩ := grammar_eq_ok_iff.mp made
  intro r member
  have written : r.draft ∈ p.rules := drafted ▸ List.mem_map_of_mem member
  have few : (r.first :: r.others).length ≤ 1 := choiceless _ written
  exact List.length_eq_zero_iff.mp (by rw [List.length_cons] at few; omega)

/-- A settled plan grows the same word from every source. -/
theorem Settled.expand {p : GrowthPlan α} (settled : p.Settled) (s₁ : σ) (s₂ : ρ) :
    p.expand s₁ = p.expand s₂ := by
  unfold GrowthPlan.expand
  cases made : p.grammar with
  | error failure => rfl
  | ok g =>
      cases seeded : p.seed with
      | some seed => rfl
      | none =>
          have choiceless : ∀ d ∈ p.rules, d.outputs.length ≤ 1 :=
            settled.resolve_left (by simp [seeded])
          have single := single_of_drafts made choiceless
          show Except.ok (g.iterate p.iterations.toNat s₁).1.current =
            .ok (g.iterate p.iterations.toNat s₂).1.current
          rw [Grammar.iterate_single single, Grammar.iterate_single single]

/-- A rule with one output that is alone in a plan is all that its word depends on. -/
theorem expand_of_rule {p : GrowthPlan α} {r : Rule} (alone : p.rules = [r.draft])
    (single : r.Single) (source : σ) :
    p.expand source = .ok ((Grammar.image [r])^[p.iterations.toNat] p.seedWord) := by
  have made : p.grammar = .ok (.ofRules p.seedWord [r]) :=
    grammar_eq_ok_iff.mpr ⟨[r], by simp [alone], rfl⟩
  have choiceless : ∀ rule ∈ (Grammar.ofRules p.seedWord [r]).rules, rule.Single :=
    List.forall_mem_singleton.mpr single
  unfold GrowthPlan.expand
  rw [made]
  cases p.seed with
  | none =>
      show Except.ok _ = _
      rw [Grammar.iterate_single choiceless]
      rfl
  | some seed =>
      show Except.ok _ = _
      rw [Grammar.iterate_single choiceless]
      rfl

variable [Scalar α]

theorem Settled.segments {p : GrowthPlan α} (settled : p.Settled) (s₁ : σ) (s₂ : ρ) :
    p.segments s₁ = p.segments s₂ := by
  unfold GrowthPlan.segments
  rw [settled.expand s₁ s₂]

/-- A plan that is carried out draws a tube for each step ahead of its word. -/
theorem segments_eq_ok {p : GrowthPlan α} {source : σ} {meshes : List (Mesh α)}
    (carried : p.segments source = .ok meshes) :
    ∃ w, p.expand source = .ok w ∧ meshes.length = w.count 'F' ∧ ∀ m ∈ meshes, p.style.Draws m := by
  unfold GrowthPlan.segments at carried
  obtain ⟨w, grown, rest⟩ := bind_eq_ok_iff.mp carried
  obtain ⟨t, made, drawn⟩ := bind_eq_ok_iff.mp rest
  obtain ⟨count, tubes⟩ := Turtle.draw_segments drawn
  obtain ⟨_, _, rfl⟩ := Turtle.ofSettings_eq_ok made
  exact ⟨w, grown, count, tubes⟩

/-- The segments of a plan are valid, as long as all of their points can be numbered. -/
theorem isValid_segments {p : GrowthPlan α} {source : σ} {meshes : List (Mesh α)}
    (carried : p.segments source = .ok meshes)
    (few : (meshes.map Mesh.vertexCount).sum < 2 ^ 32) : ∀ m ∈ meshes, m.isValid = true := by
  obtain ⟨_, _, _, tubes⟩ := segments_eq_ok carried
  intro m member
  exact (tubes m member).isValid (Nat.lt_of_le_of_lt (Mesh.vertexCount_le_sum member) few)

/-- As many points as a plan draws: twice the resolution for each step ahead. -/
theorem vertexCount_segments {p : GrowthPlan α} {source : σ} {meshes : List (Mesh α)} {w : Word}
    (carried : p.segments source = .ok meshes) (grown : p.expand source = .ok w) :
    (meshes.map Mesh.vertexCount).sum = w.count 'F' * (2 * p.style.resolution.toNat) := by
  obtain ⟨word, derived, count, tubes⟩ := segments_eq_ok carried
  rw [derived] at grown
  cases grown
  rw [← Mesh.vertexCount_mergeAll, (TubeStyle.counts_mergeAll tubes).1, count, Nat.mul_comm]

end GrowthPlan

namespace Device

/-- The meshes that a device is given for the segments of a plan. -/
def delivered (delivery : Delivery) (segments : List (Mesh Float)) : List (Mesh Float) :=
  match delivery with
  | .perSegment => segments
  | .merged => [.mergeAll segments]

/-- A device is given the flat forms of the meshes that are delivered, or told of the failure that
keeps them from being drawn. -/
theorem growth_eq {text : String} {p : GrowthPlan Float} (read : growthPlan text = .ok p)
    (source : σ) :
    growth text source = (reported (p.segments source)).map fun segments =>
      ⟨((delivered p.delivery segments).map .ofMesh).toArray⟩ := by
  unfold growth
  rw [read]
  show (do
    let _ ← reported (p.submit source FlatList.sink .empty).1
    return (p.submit source FlatList.sink .empty).2) = _
  unfold GrowthPlan.submit
  cases p.segments source with
  | error failure => rfl
  | ok segments =>
      have submitted : FlatList.sink.submit p.delivery segments .empty =
          FlatList.sink.createAll (delivered p.delivery segments) .empty := by
        cases p.delivery <;> rfl
      obtain ⟨handles, taken⟩ := failure?_eq_none_iff.mp
        (FlatList.sink_accepts.createAll (delivered p.delivery segments) .empty)
      have kept := FlatList.createAll_list (delivered p.delivery segments) .empty
      show (do
        let _ ← reported (FlatList.sink.submit p.delivery segments .empty).1
        return (FlatList.sink.submit p.delivery segments .empty).2) = _
      rw [submitted, taken, kept, FlatList.empty, Array.empty_append]
      rfl

theorem growth_eq_error_iff {text : String} {p : GrowthPlan Float}
    (read : growthPlan text = .ok p) (source : σ) {report : Report} :
    growth text source = .error report ↔
      ∃ failure, p.segments source = .error failure ∧ report = .ofFailure failure := by
  rw [growth_eq read]
  cases p.segments source <;> simp [reported, Except.map, Except.mapError, eq_comm]

theorem growth_eq_ok_iff {text : String} {p : GrowthPlan Float} (read : growthPlan text = .ok p)
    (source : σ) {list : FlatList} :
    growth text source = .ok list ↔ ∃ segments, p.segments source = .ok segments ∧
      list = ⟨((delivered p.delivery segments).map .ofMesh).toArray⟩ := by
  rw [growth_eq read]
  cases p.segments source <;> simp [reported, Except.map, Except.mapError, eq_comm]

theorem expansion_eq {text : String} {p : GrowthPlan Float} (read : growthPlan text = .ok p)
    (source : σ) : expansion text source = reported (p.expand source) := by
  unfold expansion
  rw [read]
  rfl

/-- The segments of a plan are valid tubes of fewer quads than points, so their flat forms join. -/
theorem joins_of_segments {p : GrowthPlan Float} {source : σ} {segments : List (Mesh Float)}
    (carried : p.segments source = .ok segments)
    (few : (segments.map Mesh.vertexCount).sum < 2 ^ 32) :
    (FlatMesh.ofMesh (.mergeAll segments)).Joins (segments.map .ofMesh) := by
  obtain ⟨_, _, _, tubes⟩ := GrowthPlan.segments_eq_ok carried
  refine FlatMesh.joins_ofMesh_mergeAll few (GrowthPlan.isValid_segments carried few) ?_
  intro m member
  have counts := (tubes m member).counts
  omega

variable {p : GrowthPlan Float} {splitText mergedText : String}

/-- Whether the segments of a settled plan are asked for one by one or in one mesh, a device is told
the same failure. Otherwise the one mesh holds what the many hold, as long as all points can be
numbered; and where the word goes no step ahead, none are delivered or else an empty one. -/
theorem growth_deliveries
    (split : growthPlan splitText = .ok { p with delivery := .perSegment })
    (merged : growthPlan mergedText = .ok { p with delivery := .merged })
    (settled : p.Settled) (s₁ : σ) (s₂ : ρ) :
    (∀ report, growth splitText s₁ = .error report ↔ growth mergedText s₂ = .error report) ∧
      (∀ parts, growth splitText s₁ = .ok parts →
        FlatMesh.coordinateCount parts.meshes.toList < 3 * 2 ^ 32 →
          ∃ whole : FlatMesh, growth mergedText s₂ = .ok ⟨#[whole]⟩ ∧
            whole.Joins parts.meshes.toList) ∧
      ∀ parts w, growth splitText s₁ = .ok parts → expansion splitText s₁ = .ok w → 'F' ∉ w →
        parts = ⟨#[]⟩ ∧ growth mergedText s₂ = .ok ⟨#[⟨#[], #[], #[], #[], 0, 0, 0⟩]⟩ := by
  -- Neither the source nor the delivery has a part in what is drawn.
  have same : ({ p with delivery := .merged } : GrowthPlan Float).segments s₂ =
      ({ p with delivery := .perSegment } : GrowthPlan Float).segments s₁ :=
    settled.segments s₂ s₁
  refine ⟨fun report => ?_, fun parts given few => ?_, fun parts w given grown still => ?_⟩
  · rw [growth_eq_error_iff split, growth_eq_error_iff merged, same]
  · obtain ⟨segments, carried, rfl⟩ := (growth_eq_ok_iff split s₁).mp given
    have mergedGives : growth mergedText s₂ = .ok ⟨#[.ofMesh (.mergeAll segments)]⟩ :=
      (growth_eq_ok_iff merged s₂).mpr ⟨segments, same.trans carried, rfl⟩
    have points : FlatMesh.coordinateCount (segments.map .ofMesh) < 3 * 2 ^ 32 := few
    rw [FlatMesh.coordinateCount_map_ofMesh] at points
    exact ⟨_, mergedGives, joins_of_segments carried (by omega)⟩
  · obtain ⟨segments, carried, rfl⟩ := (growth_eq_ok_iff split s₁).mp given
    obtain ⟨word, derived, count, _⟩ := GrowthPlan.segments_eq_ok carried
    rw [expansion_eq split, derived] at grown
    cases grown
    rw [List.count_eq_zero_of_not_mem still] at count
    obtain rfl := List.length_eq_zero_iff.mp count
    exact ⟨rfl, (growth_eq_ok_iff merged s₂).mpr ⟨[], same.trans carried, rfl⟩⟩

/-- The text of a plan for thin tubes, in which a rule turns an `X` into two steps ahead. -/
def planText (word output : String) : String :=
  "[\"" ++ word ++ "\",[[\"X\",[\"FF\"]]],1,null,[0,0,0],[0,0,1],[1,0,0],1,1,[0.5,4],\"" ++ output
    ++ "\"]"

/-- The plan in that text. -/
def fork (word : String) : GrowthPlan Float :=
  { (GrowthPlan.standard : GrowthPlan Float) with
    seedWord := word.toList
    rules := [.simple 'X' "FF".toList]
    turnAngle := 1
    branchLength := 1
    style := ⟨0.5, 4⟩ }

theorem fork_growth_deliveries :
    (∃ parts whole,
        growth (planText "F[X]X" "per_segment") (Script.ofList []) = .ok parts ∧
          FlatMesh.coordinateCount parts.meshes.toList = 3 * (5 * (2 * 4)) ∧
          growth (planText "F[X]X" "merged") (Script.ofList [7]) = .ok ⟨#[whole]⟩ ∧
          whole.Joins parts.meshes.toList) ∧
      growth (planText "[]" "per_segment") (Script.ofList []) = .ok ⟨#[]⟩ ∧
      growth (planText "[]" "merged") (Script.ofList [7]) =
        .ok ⟨#[⟨#[], #[], #[], #[], 0, 0, 0⟩]⟩ := by
  have settled : ∀ word, (fork word).Settled := fun word => .inr (by simp [fork, RuleDraft.simple])
  constructor
  · have split : growthPlan (planText "F[X]X" "per_segment") =
        .ok { fork "F[X]X" with delivery := .perSegment } := by decide +kernel
    have merged : growthPlan (planText "F[X]X" "merged") =
        .ok { fork "F[X]X" with delivery := .merged } := by decide +kernel
    have grown : (fork "F[X]X").expand (Script.ofList []) = .ok "F[FF]FF".toList := by
      decide +kernel
    obtain ⟨segments, carried⟩ : ∃ segments, (fork "F[X]X").segments (Script.ofList []) =
        .ok segments := by
      rw [← failure?_eq_none_iff, GrowthPlan.failure?_segments]
      decide +kernel
    have given := (growth_eq_ok_iff split (Script.ofList [])).mpr ⟨segments, carried, rfl⟩
    have points := GrowthPlan.vertexCount_segments carried grown
    have count : FlatMesh.coordinateCount (segments.map .ofMesh) = 3 * (5 * (2 * 4)) := by
      rw [FlatMesh.coordinateCount_map_ofMesh, points]
      decide
    obtain ⟨_, joined, _⟩ :=
      growth_deliveries split merged (settled _) (Script.ofList []) (Script.ofList [7])
    obtain ⟨whole, delivered, joins⟩ :=
      joined _ given (Nat.lt_of_le_of_lt (Nat.le_of_eq count) (by decide))
    exact ⟨_, whole, given, count, delivered, joins⟩
  · have split : growthPlan (planText "[]" "per_segment") =
        .ok { fork "[]" with delivery := .perSegment } := by decide +kernel
    have merged : growthPlan (planText "[]" "merged") =
        .ok { fork "[]" with delivery := .merged } := by decide +kernel
    have grown : expansion (planText "[]" "per_segment") (Script.ofList []) = .ok "[]".toList := by
      decide +kernel
    obtain ⟨segments, carried⟩ : ∃ segments, (fork "[]").segments (Script.ofList []) =
        .ok segments := by
      rw [← failure?_eq_none_iff, GrowthPlan.failure?_segments]
      decide +kernel
    have given := (growth_eq_ok_iff split (Script.ofList [])).mpr ⟨segments, carried, rfl⟩
    obtain ⟨_, _, still⟩ :=
      growth_deliveries split merged (settled _) (Script.ofList []) (Script.ofList [7])
    obtain ⟨none, empty⟩ := still _ _ given grown (by decide)
    exact ⟨by rw [given, none], empty⟩

/-- The text of a plan for a step ahead that is doubled 29 times. -/
def thicketText (output : String) : String :=
  "[\"F\",[[\"F\",[\"FF\"]]],29,null,[0,0,0],[0,0,1],[1,0,0],1,1,[0.5,3],\"" ++ output ++ "\"]"

/-- The plan in that text. -/
def thicket : GrowthPlan Float :=
  { fork "F" with
    rules := [.simple 'F' "FF".toList]
    iterations := 29
    style := ⟨0.5, 3⟩ }

/-- The word is far too long to be looked at, but its symbols can be counted. -/
theorem expand_thicket (source : σ) : ∃ w, thicket.expand source = .ok w ∧
    w.count 'F' = 2 ^ 29 ∧ ∀ symbol ∈ w, symbol = 'F' := by
  have grown := GrowthPlan.expand_of_rule (p := thicket) (r := .simple 'F' "FF".toList) rfl rfl
    source
  refine ⟨_, grown, Grammar.count_input_iterate (.simple 'F' "FF".toList) ['F'] 29, ?_⟩
  intro symbol member
  rcases GrowthPlan.mem_expand grown member with first | ⟨d, rule, output, only, put⟩
  · exact List.mem_singleton.mp first
  · obtain rfl := List.mem_singleton.mp rule
    obtain rfl := List.mem_singleton.mp only
    have doubled : symbol ∈ List.replicate 2 'F' := put
    exact List.eq_of_mem_replicate doubled

theorem fault?_thicket (source : σ) : thicket.fault? source = none := by
  obtain ⟨w, grown, _, ahead⟩ := expand_thicket source
  have complete : thicket.outputFault? = none := rfl
  have inRange : thicket.settingFault? = none := by decide +kernel
  have square : Frame.directionFault? thicket.tangent thicket.normal = none := by decide +kernel
  rw [GrowthPlan.fault?_eq_wordFault? complete inRange square]
  exact GrowthPlan.wordFault?_of_harmless grown fun symbol member => .inl (ahead symbol member)

/-- All points can be numbered, and still there are more edges than a device can count: the sum of
the counts of the many is not the count of the one. -/
theorem thicket_growth_deliveries : thicket.Settled ∧
    growthPlan (thicketText "per_segment") = .ok { thicket with delivery := .perSegment } ∧
    growthPlan (thicketText "merged") = .ok { thicket with delivery := .merged } ∧
    ∃ parts whole,
      growth (thicketText "per_segment") (Script.ofList []) = .ok parts ∧
        growth (thicketText "merged") (Script.ofList []) = .ok ⟨#[whole]⟩ ∧
        FlatMesh.coordinateCount parts.meshes.toList < 3 * 2 ^ 32 ∧
        (parts.meshes.toList.map (·.edgeCount.toNat)).sum = 4831838208 ∧
        whole.edgeCount.toNat = 4294967295 := by
  have split : growthPlan (thicketText "per_segment") =
      .ok { thicket with delivery := .perSegment } := by decide +kernel
  have merged : growthPlan (thicketText "merged") = .ok { thicket with delivery := .merged } := by
    decide +kernel
  obtain ⟨segments, carried⟩ : ∃ segments, thicket.segments (Script.ofList []) = .ok segments := by
    rw [← failure?_eq_none_iff, GrowthPlan.failure?_segments]
    exact fault?_thicket _
  obtain ⟨w, grown, steps, _⟩ := expand_thicket (Script.ofList [])
  obtain ⟨word, derived, count, tubes⟩ := GrowthPlan.segments_eq_ok carried
  cases grown.symm.trans derived
  have points : (segments.map Mesh.vertexCount).sum = 3221225472 := by
    rw [GrowthPlan.vertexCount_segments carried grown, steps]
    rfl
  have edges : ((segments.map FlatMesh.ofMesh).map (·.edgeCount.toNat)).sum = 4831838208 := by
    rw [TubeStyle.sum_edgeCount tubes (by decide), count, steps]
    rfl
  have joined := joins_of_segments carried (by omega)
  refine ⟨.inr (by simp [thicket, RuleDraft.simple]), split, merged, _, _,
    (growth_eq_ok_iff split _).mpr ⟨segments, carried, rfl⟩,
    (growth_eq_ok_iff merged _).mpr ⟨segments, carried, rfl⟩, ?_, edges, ?_⟩
  · show FlatMesh.coordinateCount (segments.map .ofMesh) < _
    rw [FlatMesh.coordinateCount_map_ofMesh, points]
    decide
  · rw [joined.edgeCount, edges]
    rfl

end Device

end Tendril
