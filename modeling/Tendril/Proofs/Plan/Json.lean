import Tendril.Plan.Device
import Tendril.Proofs.Json.Parser
import Tendril.Proofs.Json.Record

/-!
# Plans read back

A plan that is written down and read again is the plan it was, as far as its numbers are. A double
that is no number is written as null, which no number is read from, so such a plan is refused; and
a number is read in two rounded steps, so `Numeral.ReadsBack` has to be asked of each double. All
else in a plan comes back whatever it is.
-/

namespace Tendril

/-- A double whose number is read as that double. -/
def Numeral.ReadsBack (x : Float) : Prop :=
  (read? ((Layout.data.ofFloat x).text true)).bind toFloat? = some x

instance (x : Float) : Decidable (Numeral.ReadsBack x) := inferInstanceAs (Decidable (_ = _))

/-- A finite double that comes back from its number. -/
structure Kept (x : Float) : Prop where
  finite : x.isFinite = true
  readsBack : Numeral.ReadsBack x

instance (x : Float) : Decidable (Kept x) :=
  decidable_of_iff (x.isFinite = true ∧ Numeral.ReadsBack x)
    ⟨fun h => ⟨h.1, h.2⟩, fun h => ⟨h.1, h.2⟩⟩

namespace Json

theorem toFloat?_of_kept {x : Float} (kept : Kept x) :
    (Layout.data.ofFloat x).toFloat? = some x := by
  have back := kept.readsBack
  rwa [Numeral.ReadsBack, Numeral.read?_text, Option.bind_some] at back

theorem float?_ofFloat {x : Float} (kept : Kept x) : float? (.ofFloat x) = some x := by
  rw [ofFloat, if_pos kept.finite]
  exact toFloat?_of_kept kept

theorem isPlain_ofFloat {x : Float} (kept : Kept x) (depth : Nat) :
    isPlain depth (.ofFloat x) = true := by
  rw [ofFloat, if_pos kept.finite, isPlain, toFloat?_of_kept kept]
  rfl

/-- Values that numbers are read from are plain. -/
theorem arePlain_of_map_float? {numbers : List Json} {floats : List Float}
    (read : numbers.map float? = floats.map some) (depth : Nat) :
    arePlain depth numbers = true := by
  induction numbers generalizing floats with
  | nil => rfl
  | cons value numbers ih =>
      cases floats with
      | nil => cases read
      | cons x floats =>
          obtain ⟨here, later⟩ := List.cons.inj read
          cases value with
          | number n =>
              have inRange : n.toFloat? = some x := here
              rw [arePlain, isPlain, inRange, ih later]
              rfl
          | _ => cases here

theorem isFinite_of_float? {x y : Float} (read : float? (.ofFloat x) = some y) :
    x.isFinite = true := by
  by_cases finite : x.isFinite = true
  · exact finite
  · rw [ofFloat, if_neg finite] at read
    cases read

/-- A pair of a writer and a reader for values that hold some doubles: a value with good doubles is
read back, and one with a double that is no number is not read at all. -/
structure Encodes {β : Type} (json : β → Json) (ofJson? : Json → Option β)
    (floats : β → List Float) : Prop where
  reads : ∀ b, (∀ x ∈ floats b, Kept x) → ofJson? (json b) = some b
  finite : ∀ b c, ofJson? (json b) = some c → ∀ x ∈ floats b, x.isFinite = true

namespace Encodes

variable {β : Type} {json : β → Json} {ofJson? : Json → Option β} {floats : β → List Float}

theorem refuses (encodes : Encodes json ofJson? floats) {b : β}
    (wild : ∃ x ∈ floats b, x.isFinite = false) : ofJson? (json b) = none := by
  obtain ⟨x, held, infinite⟩ := wild
  cases read : ofJson? (json b) with
  | none => rfl
  | some c =>
      rw [encodes.finite b c read x held] at infinite
      cases infinite

/-- Values without doubles only have to be read back. -/
theorem exact (back : ∀ b, ofJson? (json b) = some b) : Encodes json ofJson? fun _ => [] where
  reads b _ := back b
  finite _ _ _ _ held := absurd held List.not_mem_nil

/-- An array is read item by item, and holds the doubles of its items. -/
theorem list (encodes : Encodes json ofJson? floats) :
    Encodes (fun items : List β => .array (items.map json)) (list? ofJson?)
      fun items => items.flatMap floats where
  reads items kept := by
    show (items.map json).mapM ofJson? = some items
    induction items with
    | nil => rfl
    | cons b items ih =>
        rw [List.flatMap_cons, List.forall_mem_append] at kept
        rw [List.map_cons, List.mapM_cons, encodes.reads b kept.1, ih kept.2]
        rfl
  finite items others read := by
    have each : (items.map json).mapM ofJson? = some others := read
    clear read
    induction items generalizing others with
    | nil => exact List.forall_mem_nil _
    | cons b items ih =>
        rw [List.map_cons, List.mapM_cons] at each
        simp only [Option.bind_eq_bind, Option.bind_eq_some_iff] at each
        obtain ⟨c, here, rest, later, _⟩ := each
        rw [List.flatMap_cons, List.forall_mem_append]
        exact ⟨encodes.finite b c here, ih rest later⟩

end Encodes

theorem encodes_float : Encodes ofFloat float? fun x => [x] where
  reads x kept := float?_ofFloat (kept x List.mem_cons_self)
  finite x y read := by simp [isFinite_of_float? read]

/-! ## Values without doubles -/

theorem list?_map {β : Type} {json : β → Json} {ofJson? : Json → Option β}
    (back : ∀ b, ofJson? (json b) = some b) (items : List β) :
    list? ofJson? (.array (items.map json)) = some items :=
  (Encodes.exact back).list.reads items (by simp)

/-- Null stands for nothing, as long as it stands for no value. -/
theorem optional?_getD {β : Type} {json : β → Json} {ofJson? : Json → Option β}
    (back : ∀ b, ofJson? (json b) = some b) (void : ofJson? .null = none) (o : Option β) :
    optional? ofJson? ((o.map json).getD .null) = some o := by
  cases o with
  | none => rfl
  | some b =>
      have read := back b
      rw [Option.map_some, Option.getD_some]
      generalize json b = value at read ⊢
      cases value with
      | null =>
          rw [void] at read
          cases read
      | _ => simp [optional?, read]

@[simp] theorem text?_ofText (s : String) : text? (.ofText s) = some s := rfl

theorem count?_ofNat (n : UInt64) : count? (.ofNat n.toNat) = some n := by
  show (if n.toNat < UInt64.size then some (UInt64.ofNat n.toNat) else none) = some n
  rw [if_pos n.toNat_lt, UInt64.ofNat_toNat]

theorem char?_singleton (c : Char) : char? (.ofText (String.singleton c)) = some c := by
  simp [char?]

end Json

theorem word?_wordJson (w : Word) : word? (wordJson w) = some w := by
  simp [word?, wordJson]

theorem Outline.ofJson?_json (o : Outline) : Outline.ofJson? o.json = some o := by
  cases o <;> decide

theorem Delivery.ofJson?_json (d : Delivery) : Delivery.ofJson? d.json = some d := by
  cases d <;> decide

/-- A draft comes back whatever its symbols are, and also without outputs. -/
theorem RuleDraft.ofJson?_json (d : RuleDraft) : RuleDraft.ofJson? d.json = some d := by
  have input := Json.char?_singleton d.input
  have outputs := Json.list?_map word?_wordJson d.outputs
  rw [RuleDraft.ofJson?, RuleDraft.json, Json.fields?_record (by simp)]
  simp [Json.required, List.lookup_cons, input, outputs]

namespace Vec3

/-- The doubles of a vector. -/
def floats (p : Vec3 Float) : List Float := [p.x, p.y, p.z]

theorem encodes : Json.Encodes json ofJson? floats where
  reads p kept := by
    simp only [floats, List.forall_mem_cons] at kept
    simp only [json, ofJson?, Json.float?_ofFloat kept.1, Json.float?_ofFloat kept.2.1,
      Json.float?_ofFloat kept.2.2.1]
    rfl
  finite p q read := by
    simp only [json, ofJson?, Option.bind_eq_bind, Option.bind_eq_some_iff] at read
    obtain ⟨x, readX, y, readY, z, readZ, _⟩ := read
    simp only [floats, List.forall_mem_cons]
    exact ⟨Json.isFinite_of_float? readX, Json.isFinite_of_float? readY,
      Json.isFinite_of_float? readZ, List.forall_mem_nil _⟩

end Vec3

namespace Ramp

/-- The doubles of a ramp. -/
def floats : Ramp Float → List Float
  | .constant value => [value]
  | .linear offset slope => [offset, slope]

/-- A ramp is read off its type and the numbers that go with it, if all of its members are plain. -/
theorem ofJson?_record {named : List (String × Json)} (distinct : (named.map Prod.fst).Nodup)
    (outer : Nat) : ofJson? outer (.record named) =
      if Json.membersArePlain (nestingLimit - outer - 1) (Json.record named).members then
        (Json.required Json.text? (List.lookup "type" named)).bind fun tag =>
          if tag = "constant" then
            (Json.required Json.float? (List.lookup "value" named)).bind fun value =>
              some (.constant value)
          else if tag = "linear" then
            (Json.required Json.float? (List.lookup "offset" named)).bind fun offset =>
              (Json.required Json.float? (List.lookup "slope" named)).bind fun slope =>
                some (.linear offset slope)
          else none
      else none := by
  have fields := Json.fields?_record distinct
  unfold Json.record at fields ⊢
  simp only [ofJson?, ofTag?, fields, Option.bind_eq_bind, Option.bind_some, Json.members]
  rfl

/-- The numbers of a ramp are all that it has to be read, whatever it stands in. -/
theorem encodes (outer : Nat) : Json.Encodes json (ofJson? outer) floats where
  reads r kept := by
    cases r with
    | constant value =>
        have good := kept value List.mem_cons_self
        have plain : ∀ depth,
            Json.membersArePlain depth (json (.constant value)).members = true := by
          intro depth
          simp [json, Json.record, Json.members, Json.membersArePlain, Json.isPlain, Json.ofText,
            Json.isPlain_ofFloat good]
        rw [json, ofJson?_record (by simp), ← json, if_pos (plain _)]
        simp [Json.required, List.lookup_cons, Json.float?_ofFloat good]
    | linear offset slope =>
        have goodOffset := kept offset List.mem_cons_self
        have goodSlope := kept slope (by simp [floats])
        have plain : ∀ depth,
            Json.membersArePlain depth (json (.linear offset slope)).members = true := by
          intro depth
          simp [json, Json.record, Json.members, Json.membersArePlain, Json.isPlain, Json.ofText,
            Json.isPlain_ofFloat goodOffset, Json.isPlain_ofFloat goodSlope]
        rw [json, ofJson?_record (by simp), ← json, if_pos (plain _)]
        simp [Json.required, List.lookup_cons, Json.float?_ofFloat goodOffset,
          Json.float?_ofFloat goodSlope]
  finite r s read := by
    cases r with
    | constant value =>
        rw [json, ofJson?_record (by simp)] at read
        have number := (Option.ite_none_right_eq_some.mp read).2
        simp only [Json.required, List.lookup_cons, Json.text?_ofText, Option.bind_some, if_true,
          String.reduceBEq, Option.bind_eq_some_iff] at number
        obtain ⟨_, there, _⟩ := number
        simp [floats, Json.isFinite_of_float? there]
    | linear offset slope =>
        rw [json, ofJson?_record (by simp)] at read
        have numbers := (Option.ite_none_right_eq_some.mp read).2
        simp only [Json.required, List.lookup_cons, Json.text?_ofText, Option.bind_some,
          String.reduceBEq, String.reduceEq, if_true, if_false, Option.bind_eq_some_iff] at numbers
        obtain ⟨_, thereOffset, _, thereSlope, _⟩ := numbers
        simp [floats, Json.isFinite_of_float? thereOffset, Json.isFinite_of_float? thereSlope]

/-- The type of a ramp. -/
def tag : Ramp Float → String
  | .constant _ => "constant"
  | .linear _ _ => "linear"

theorem ofTag?_array_eq_some_iff {tag : String} {numbers : List Json} {r : Ramp Float} :
    ofTag? tag (.array numbers) = some r ↔
      tag = r.tag ∧ numbers.map Json.float? = r.floats.map some := by
  unfold ofTag?
  split
  case isTrue constant =>
    subst constant
    rcases numbers with _ | ⟨x, _ | ⟨y, rest⟩⟩ <;> cases r <;>
      simp [Json.fields?, Json.required, Option.bind_eq_some_iff, floats, Ramp.tag]
  case isFalse other =>
    split
    case isTrue linear =>
      subst linear
      rcases numbers with _ | ⟨x, _ | ⟨y, _ | ⟨z, rest⟩⟩⟩ <;> cases r <;>
        simp [Json.fields?, Json.required, Option.bind_eq_some_iff, floats, Ramp.tag]
    case isFalse neither => cases r <;> simp [Ramp.tag, other, neither]

/-- An array is read as a ramp just if it holds the type of the ramp, then numbers for its doubles
in their order, and nothing else. -/
theorem ofJson?_array_eq_some_iff {outer : Nat} {items : List Json} {r : Ramp Float} :
    ofJson? outer (.array items) = some r ↔ ∃ numbers, items = .ofText r.tag :: numbers ∧
      numbers.map Json.float? = r.floats.map some := by
  constructor
  · intro read
    cases items with
    | nil => cases read
    | cons first numbers =>
        obtain ⟨_, tagged⟩ := Option.ite_none_right_eq_some.mp read
        obtain ⟨tag, text, numbered⟩ := Option.bind_eq_some_iff.mp tagged
        obtain ⟨rfl, same⟩ := ofTag?_array_eq_some_iff.mp numbered
        cases first with
        | string s =>
            obtain rfl : s = some r.tag := text
            exact ⟨numbers, rfl, same⟩
        | _ => cases text
  · rintro ⟨numbers, rfl, same⟩
    have plain := Json.arePlain_of_map_float? same (nestingLimit - outer - 1)
    exact (if_pos plain).trans (ofTag?_array_eq_some_iff.mpr ⟨rfl, same⟩)

example : (Json.read? "[\"linear\",0,0.2]").bind (ofJson? 1) = some (.linear 0 0.2) := by
  decide +kernel

end Ramp

namespace Profile

/-- The doubles of a profile. -/
def floats (p : Profile Float) : List Float := [p.radius]

theorem encodes : Json.Encodes json ofJson? floats where
  reads p kept := by
    have radius := Json.float?_ofFloat (kept p.radius List.mem_cons_self)
    have morphTo := Json.optional?_getD Outline.ofJson?_json rfl p.morphTo
    rw [ofJson?, json, Json.fields?_record (by simp)]
    simp [Json.required, Json.withDefault, List.lookup_cons, Outline.ofJson?_json, radius,
      Json.count?_ofNat, morphTo]
  finite p q read := by
    rw [ofJson?, json, Json.fields?_record (by simp)] at read
    simp only [Json.required, List.lookup_cons, Option.bind_eq_bind, Option.bind_some,
      String.reduceBEq, Option.bind_eq_some_iff] at read
    obtain ⟨_, _, _, there, _⟩ := read
    simp [floats, Json.isFinite_of_float? there]

end Profile

namespace TubeStyle

/-- The doubles of a tube style. -/
def floats (s : TubeStyle Float) : List Float := [s.radius]

theorem encodes : Json.Encodes json ofJson? floats where
  reads s kept := by
    have radius := Json.float?_ofFloat (kept s.radius List.mem_cons_self)
    rw [ofJson?, json, Json.fields?_record (by simp)]
    simp [Json.required, List.lookup_cons, radius, Json.count?_ofNat]
  finite p q read := by
    rw [ofJson?, json, Json.fields?_record (by simp)] at read
    simp only [Json.required, List.lookup_cons, Option.bind_eq_bind, Option.bind_some,
      String.reduceBEq, Option.bind_eq_some_iff] at read
    obtain ⟨_, there, _⟩ := read
    simp [floats, Json.isFinite_of_float? there]

end TubeStyle

/-! ## Plans -/

namespace Json

section Fields

variable {β : Type} {json : β → Json} {ofJson? : Json → Option β} {floats : β → List Float} {b : β}
  {field : Option Json} {present : Bool}

/-- A field that may be left out is the one that was given, or else the usual one. -/
theorem withDefault_of_field (encodes : Encodes json ofJson? floats)
    (kept : ∀ x ∈ floats b, Kept x) (given : field = if present then some (json b) else none)
    (usual : β) : withDefault usual ofJson? field = some (if present then b else usual) := by
  rw [given]
  cases present with
  | true => exact encodes.reads b kept
  | false => rfl

/-- A field that is given is not read unless its doubles are numbers. -/
theorem finite_of_withDefault (encodes : Encodes json ofJson? floats) {usual c : β}
    (given : field = some (json b)) (read : withDefault usual ofJson? field = some c) :
    ∀ x ∈ floats b, x.isFinite = true := by
  rw [given] at read
  exact encodes.finite b c read

end Fields

end Json

namespace SweepPlan

/-- The doubles of a sweep plan. -/
def floats (p : SweepPlan Float) : List Float :=
  [p.start.floats, p.tangent.floats, p.normal.floats, p.displacement.floats, p.coilingRate.floats,
    p.coilingRadius.floats, p.scaling.floats, p.profile.floats].flatten

/-- The plan that agrees with `p` on the fields in `present` and is standard otherwise. -/
def only (p : SweepPlan Float) (present : String → Bool) : SweepPlan Float :=
  let usual : SweepPlan Float := standard
  { start := if present "start" then p.start else usual.start
    tangent := if present "tangent" then p.tangent else usual.tangent
    normal := if present "normal" then p.normal else usual.normal
    maxIterations := if present "max_iterations" then p.maxIterations else usual.maxIterations
    displacement := if present "displacement" then p.displacement else usual.displacement
    coilingRate := if present "coiling_rate" then p.coilingRate else usual.coilingRate
    coilingRadius := if present "coiling_radius" then p.coilingRadius else usual.coilingRadius
    scaling := if present "scaling_factor" then p.scaling else usual.scaling
    profile := if present "profile" then p.profile else usual.profile }

theorem fills (p : SweepPlan Float) : Json.Fills fieldNames p.json.members where
  keys := rfl
  distinct := by decide

open Json in
/-- The fields of a plan are read as what they say, whatever form they come in. -/
theorem ofJson?_of_fields {p : SweepPlan Float} (kept : ∀ x ∈ p.floats, Kept x) {value : Json}
    {present : String → Bool} {field : String → Option Json}
    (read : fields? fieldNames value = some field)
    (given : FieldsOf fieldNames p.json.members present field) :
    ofJson? value = some (p.only present) := by
  simp only [floats, List.flatten_cons, List.forall_mem_append] at kept
  obtain ⟨start, tangent, normal, displacement, rate, radius, scaling, profile, _⟩ := kept
  simp only [FieldsOf, fieldNames, List.forall_mem_cons] at given
  obtain ⟨ofStart, ofTangent, ofNormal, ofBound, ofDisplacement, ofRate, ofRadius, ofScaling,
    ofProfile, _⟩ := given
  have start := withDefault_of_field Vec3.encodes start ofStart
  have tangent := withDefault_of_field Vec3.encodes tangent ofTangent
  have normal := withDefault_of_field Vec3.encodes normal ofNormal
  have bound := withDefault_of_field (b := p.maxIterations) (.exact count?_ofNat)
    (List.forall_mem_nil _) ofBound
  have displacement := withDefault_of_field (Ramp.encodes 1) displacement ofDisplacement
  have rate := withDefault_of_field (Ramp.encodes 1) rate ofRate
  have radius := withDefault_of_field (Ramp.encodes 1) radius ofRadius
  have scaling := withDefault_of_field (Ramp.encodes 1) scaling ofScaling
  have profile := withDefault_of_field Profile.encodes profile ofProfile
  rw [ofJson?, read]
  simp only [Option.bind_eq_bind, Option.bind_some, start, tangent, normal, bound, displacement,
    rate, radius, scaling, profile]
  rfl

open Json in
theorem encodes : Encodes json ofJson? floats where
  reads p kept := by
    obtain ⟨field, read, given⟩ := p.fills.fields?_self
    exact ofJson?_of_fields kept read given
  finite p q read := by
    obtain ⟨field, fields, given⟩ := p.fills.fields?_self
    rw [ofJson?, show fields? fieldNames p.json = some field from fields] at read
    simp only [Option.bind_eq_bind, Option.bind_some, Option.bind_eq_some_iff] at read
    obtain ⟨_, start, _, tangent, _, normal, _, _, _, displacement, _, rate, _, radius, _, scaling,
      _, profile, _⟩ := read
    simp only [FieldsOf, fieldNames, List.forall_mem_cons, if_true] at given
    obtain ⟨ofStart, ofTangent, ofNormal, _, ofDisplacement, ofRate, ofRadius, ofScaling,
      ofProfile, _⟩ := given
    have start := finite_of_withDefault Vec3.encodes ofStart start
    have tangent := finite_of_withDefault Vec3.encodes ofTangent tangent
    have normal := finite_of_withDefault Vec3.encodes ofNormal normal
    have displacement := finite_of_withDefault (Ramp.encodes 1) ofDisplacement displacement
    have rate := finite_of_withDefault (Ramp.encodes 1) ofRate rate
    have radius := finite_of_withDefault (Ramp.encodes 1) ofRadius radius
    have scaling := finite_of_withDefault (Ramp.encodes 1) ofScaling scaling
    have profile := finite_of_withDefault Profile.encodes ofProfile profile
    simp only [floats, List.flatten_cons, List.forall_mem_append]
    exact ⟨start, tangent, normal, displacement, rate, radius, scaling, profile,
      List.forall_mem_nil _⟩

end SweepPlan

namespace GrowthPlan

/-- The doubles of a growth plan. -/
def floats (p : GrowthPlan Float) : List Float :=
  [p.origin.floats, p.tangent.floats, p.normal.floats, [p.turnAngle], [p.branchLength],
    p.style.floats].flatten

/-- The plan that agrees with `p` on the fields in `present` and is standard otherwise. -/
def only (p : GrowthPlan Float) (present : String → Bool) : GrowthPlan Float :=
  let usual : GrowthPlan Float := standard
  { seedWord := if present "axiom" then p.seedWord else usual.seedWord
    rules := if present "rules" then p.rules else usual.rules
    iterations := if present "iterations" then p.iterations else usual.iterations
    seed := if present "seed" then p.seed else usual.seed
    origin := if present "origin" then p.origin else usual.origin
    tangent := if present "tangent" then p.tangent else usual.tangent
    normal := if present "normal" then p.normal else usual.normal
    turnAngle := if present "turn_angle" then p.turnAngle else usual.turnAngle
    branchLength := if present "branch_length" then p.branchLength else usual.branchLength
    style := if present "branch" then p.style else usual.style
    delivery := if present "output" then p.delivery else usual.delivery }

theorem fills (p : GrowthPlan Float) : Json.Fills fieldNames p.json.members where
  keys := rfl
  distinct := by decide

open Json in
/-- The fields of a plan are read as what they say, whatever form they come in. -/
theorem ofJson?_of_fields {p : GrowthPlan Float} (kept : ∀ x ∈ p.floats, Kept x) {value : Json}
    {present : String → Bool} {field : String → Option Json}
    (read : fields? fieldNames value = some field)
    (given : FieldsOf fieldNames p.json.members present field) :
    ofJson? value = some (p.only present) := by
  simp only [floats, List.flatten_cons, List.forall_mem_append] at kept
  obtain ⟨origin, tangent, normal, angle, length, style, _⟩ := kept
  simp only [FieldsOf, fieldNames, List.forall_mem_cons] at given
  obtain ⟨ofWord, ofRules, ofIterations, ofSeed, ofOrigin, ofTangent, ofNormal, ofAngle, ofLength,
    ofStyle, ofDelivery, _⟩ := given
  have none {β : Type} (b : β) : ∀ x ∈ (fun _ : β => ([] : List Float)) b, Kept x :=
    List.forall_mem_nil _
  have seedWord := withDefault_of_field (.exact word?_wordJson) (none p.seedWord) ofWord
  have rules :=
    withDefault_of_field (.exact (list?_map RuleDraft.ofJson?_json)) (none p.rules) ofRules
  have iterations := withDefault_of_field (.exact count?_ofNat) (none p.iterations) ofIterations
  -- A seed is a number and never null, so null can only mean that there is none.
  have seed :=
    withDefault_of_field (.exact (optional?_getD count?_ofNat rfl)) (none p.seed) ofSeed
  have origin := withDefault_of_field Vec3.encodes origin ofOrigin
  have tangent := withDefault_of_field Vec3.encodes tangent ofTangent
  have normal := withDefault_of_field Vec3.encodes normal ofNormal
  have angle := withDefault_of_field encodes_float angle ofAngle
  have length := withDefault_of_field encodes_float length ofLength
  have style := withDefault_of_field TubeStyle.encodes style ofStyle
  have delivery := withDefault_of_field (.exact Delivery.ofJson?_json) (none p.delivery) ofDelivery
  rw [ofJson?, read]
  simp only [Option.bind_eq_bind, Option.bind_some, seedWord, rules, iterations, seed, origin,
    tangent, normal, angle, length, style, delivery]
  rfl

open Json in
theorem encodes : Encodes json ofJson? floats where
  reads p kept := by
    obtain ⟨field, read, given⟩ := p.fills.fields?_self
    exact ofJson?_of_fields kept read given
  finite p q read := by
    obtain ⟨field, fields, given⟩ := p.fills.fields?_self
    rw [ofJson?, show fields? fieldNames p.json = some field from fields] at read
    simp only [Option.bind_eq_bind, Option.bind_some, Option.bind_eq_some_iff] at read
    obtain ⟨_, _, _, _, _, _, _, _, _, origin, _, tangent, _, normal, _, angle, _, length, _, style,
      _, _, _⟩ := read
    simp only [FieldsOf, fieldNames, List.forall_mem_cons, if_true] at given
    obtain ⟨_, _, _, _, ofOrigin, ofTangent, ofNormal, ofAngle, ofLength, ofStyle, _⟩ := given
    have origin := finite_of_withDefault Vec3.encodes ofOrigin origin
    have tangent := finite_of_withDefault Vec3.encodes ofTangent tangent
    have normal := finite_of_withDefault Vec3.encodes ofNormal normal
    have angle := finite_of_withDefault encodes_float ofAngle angle
    have length := finite_of_withDefault encodes_float ofLength length
    have style := finite_of_withDefault TubeStyle.encodes ofStyle style
    simp only [floats, List.flatten_cons, List.forall_mem_append]
    exact ⟨origin, tangent, normal, angle, length, style, List.forall_mem_nil _⟩

end GrowthPlan

end Tendril
