import Tendril.Proofs.Failure
import Tendril.Proofs.Plan.Json

/-!
# The texts of plans

A device is given plans as texts. The text that a plan is written to is read as that plan, and a
host may also give some of the fields and leave the rest to the standard plan. What the fields are
read as does not hang on their order nor on what else an object holds; only a field that is given
twice is not put up with.
-/

namespace Tendril

namespace Device

/-- A reader of texts that knows nothing of a text but its value. -/
def Decodes {β : Type} (ofJson? : Json → Option β) (decode : String → Except Report β) : Prop :=
  ∀ text, decode text = ((Json.read? text).bind ofJson?).elim (.error .unreadable) .ok

namespace Decodes

variable {β : Type} {ofJson? : Json → Option β} {decode : String → Except Report β}
  {text : String} {value : Json}

theorem ok_of_read (decodes : Decodes ofJson? decode) (spelled : Json.read? text = some value)
    {b : β} (read : ofJson? value = some b) : decode text = .ok b := by
  rw [decodes, spelled, Option.bind_some, read]
  rfl

theorem error_of_read (decodes : Decodes ofJson? decode) (spelled : Json.read? text = some value)
    (refused : ofJson? value = none) : decode text = .error .unreadable := by
  rw [decodes, spelled, Option.bind_some, refused]
  rfl

/-- What is written is read again, or is refused for a double that is no number. -/
theorem write {json : β → Json} {floats : β → List Float} (decodes : Decodes ofJson? decode)
    (encodes : Json.Encodes json ofJson? floats) (b : β) :
    ((∀ x ∈ floats b, Kept x) → decode (json b).write = .ok b) ∧
      ((∃ x ∈ floats b, x.isFinite = false) → decode (json b).write = .error .unreadable) :=
  ⟨fun kept => decodes.ok_of_read (Json.read?_write _) (encodes.reads b kept),
    fun wild => decodes.error_of_read (Json.read?_write _) (encodes.refuses wild)⟩

end Decodes

theorem decodes_sweepPlan : Decodes SweepPlan.ofJson? sweepPlan := fun _ => rfl

theorem decodes_growthPlan : Decodes GrowthPlan.ofJson? growthPlan := fun _ => rfl

/-! ## Whole plans -/

/-- A plan comes back from the text that it is written to, whatever words, rules, seed and shapes it
has, as far as its doubles do; and if one of its doubles is no number, the text is refused. -/
theorem plan_written :
    (∀ p : SweepPlan Float,
      ((∀ x ∈ p.floats, Kept x) → sweepPlan p.json.write = .ok p) ∧
        ((∃ x ∈ p.floats, x.isFinite = false) →
          sweepPlan p.json.write = .error .unreadable)) ∧
      ∀ p : GrowthPlan Float,
        ((∀ x ∈ p.floats, Kept x) → growthPlan p.json.write = .ok p) ∧
          ((∃ x ∈ p.floats, x.isFinite = false) →
            growthPlan p.json.write = .error .unreadable) :=
  ⟨decodes_sweepPlan.write SweepPlan.encodes, decodes_growthPlan.write GrowthPlan.encodes⟩

/-- A circle that turns into half an oval, from below zero on. -/
def ribbon : SweepPlan Float :=
  { (SweepPlan.standard : SweepPlan Float) with
    start := ⟨-0.0, 0.1, 1e300⟩
    scaling := .linear 1 0.25
    profile := { outline := .circle, radius := 2.5, resolution := 9, morphTo := some .semiOval } }

/-- A word with symbols that have to be escaped, and rules of which one has no outputs. -/
def bramble : GrowthPlan Float :=
  { (GrowthPlan.standard : GrowthPlan Float) with
    seedWord := ['"', '\\', '\n', '\x01', '😀', 'F']
    rules := [⟨'"', []⟩, ⟨'😀', [[], ['F', '"']]⟩]
    seed := some 0xffffffffffffffff
    origin := ⟨-0.0, 0.1, 5e-324⟩
    delivery := .merged }

theorem bramble_plan_written :
    (sweepPlan ribbon.json.write = .ok ribbon ∧
        sweepPlan { ribbon with scaling := .linear 1 (1 / 0) }.json.write = .error .unreadable) ∧
      growthPlan bramble.json.write = .ok bramble ∧
        growthPlan { bramble with branchLength := 0 / 0 }.json.write = .error .unreadable :=
  ⟨⟨(plan_written.1 ribbon).1 (by decide +kernel),
      (plan_written.1 { ribbon with scaling := .linear 1 (1 / 0) }).2 (by decide +kernel)⟩,
    (plan_written.2 bramble).1 (by decide +kernel),
    (plan_written.2 { bramble with branchLength := 0 / 0 }).2 (by decide +kernel)⟩

/-! ## Parts of plans -/

/-- A reader that takes some of the fields of a record for what `only` says of them. -/
structure ReadsParts {β : Type} (names : List String) (whole : List (Option String × Json))
    (only : (String → Bool) → β) (decode : String → Except Report β) : Prop where
  /-- An object may have the fields in any order, and anything else under other names. -/
  object : ∀ present given text, Json.Presents names whole present given →
    Json.read? text = some (.object given) → decode text = .ok (only present)
  /-- No field may occur twice, with whatever values. -/
  repeated : ∀ name ∈ names, ∀ before between after value other text,
    Json.read? text = some
        (.object (before ++ (some name, value) :: (between ++ (some name, other) :: after))) →
      decode text = .error .unreadable
  /-- An array of values stands for the fields declared first. -/
  array : ∀ count items text,
    Json.read? items = some (.array ((whole.take count).map Prod.snd)) →
      Json.read? text = some (.object (whole.take count)) →
        decode items = .ok (only (names.take count).contains) ∧ decode text = decode items

section ReadsParts

variable {β : Type} {ofJson? : Json → Option β} {decode : String → Except Report β}
  {names : List String} {whole : List (Option String × Json)} {only : (String → Bool) → β}

/-- It is enough that a reader goes by the fields. -/
theorem Decodes.readsParts (decodes : Decodes ofJson? decode) (fills : Json.Fills names whole)
    (reads : ∀ {value present field}, Json.fields? names value = some field →
      Json.FieldsOf names whole present field → ofJson? value = some (only present))
    (unread : ∀ {value}, Json.fields? names value = none → ofJson? value = none) :
    ReadsParts names whole only decode := by
  have object : ∀ present given text, Json.Presents names whole present given →
      Json.read? text = some (.object given) → decode text = .ok (only present) := by
    intro present given text presents spelled
    obtain ⟨field, read, fields⟩ := presents.fields? fills
    exact decodes.ok_of_read spelled (reads read fields)
  refine ⟨object, ?_, ?_⟩
  · intro name known before between after value other text spelled
    exact decodes.error_of_read spelled
      (unread (Json.fields?_repeated known before between after value other))
  · intro count items text spelledItems spelledText
    obtain ⟨field, read, fields⟩ := fills.fields?_take count
    have first := decodes.ok_of_read spelledItems (reads read fields)
    -- The object with the fields declared first is an object with some of the fields.
    rw [fills.take_eq_filter] at spelledText
    exact ⟨first, (object _ _ _ (fills.presents _) spelledText).trans first.symm⟩

end ReadsParts

/-- Where some fields of a plan are given, in an object or as an array, the plan that is read has
these fields and is the standard plan for the rest, as far as its doubles come back. -/
theorem plan_parts :
    (∀ p : SweepPlan Float, (∀ x ∈ p.floats, Kept x) →
      ReadsParts SweepPlan.fieldNames p.json.members p.only sweepPlan) ∧
      ∀ p : GrowthPlan Float, (∀ x ∈ p.floats, Kept x) →
        ReadsParts GrowthPlan.fieldNames p.json.members p.only growthPlan := by
  constructor
  · intro p kept
    refine decodes_sweepPlan.readsParts p.fills (SweepPlan.ofJson?_of_fields kept) ?_
    intro value unread
    rw [SweepPlan.ofJson?, unread]
    rfl
  · intro p kept
    refine decodes_growthPlan.readsParts p.fills (GrowthPlan.ofJson?_of_fields kept) ?_
    intro value unread
    rw [GrowthPlan.ofJson?, unread]
    rfl

/-- The profile and the start of the ribbon, in this order, among members that no plan has. -/
def scattered : List (Option String × Json) :=
  [(some "glow", .object [(some "start", .null), (some "glow", .array [.string none])]),
    (some "profile", ribbon.profile.json), (some "glow", .bool true),
    (some "start", ribbon.start.json)]

theorem presents_scattered : Json.Presents SweepPlan.fieldNames ribbon.json.members
    ["start", "profile"].contains scattered where
  texts := by simp [scattered]
  known := .swap (some "start", ribbon.start.json) (some "profile", ribbon.profile.json) []

theorem ribbon_plan_parts :
    (sweepPlan (Json.object scattered).write =
        .ok { (SweepPlan.standard : SweepPlan Float) with
          start := ribbon.start, profile := ribbon.profile } ∧
      sweepPlan (Json.object (scattered ++ [(some "start", ribbon.start.json)])).write =
        .error .unreadable ∧
      sweepPlan (Json.array [ribbon.start.json, ribbon.tangent.json]).write =
        .ok { (SweepPlan.standard : SweepPlan Float) with
          start := ribbon.start, tangent := ribbon.tangent }) ∧
      growthPlan (Json.array
          [wordJson bramble.seedWord, .array (bramble.rules.map RuleDraft.json)]).write =
        .ok { (GrowthPlan.standard : GrowthPlan Float) with
          seedWord := bramble.seedWord, rules := bramble.rules } := by
  have sweeps := plan_parts.1 ribbon (by decide +kernel)
  have grows := plan_parts.2 bramble (by decide +kernel)
  refine ⟨⟨?_, ?_, ?_⟩, ?_⟩
  · exact sweeps.object _ _ _ presents_scattered (Json.read?_write _)
  · exact sweeps.repeated "start" (by decide) (scattered.take 3) [] [] _ _ _ (Json.read?_write _)
  · exact (sweeps.array 2 _ _ (Json.read?_write _) (Json.read?_write _)).1
  · exact (grows.array 2 _ _ (Json.read?_write _) (Json.read?_write _)).1

/-- A plan that starts at a double which is read as its neighbour. -/
def straying : SweepPlan Float :=
  { (SweepPlan.standard : SweepPlan Float) with start := ⟨7.6635459321772075, 0, 0⟩ }

/-- It is not enough that all doubles of a plan are numbers. -/
theorem straying_plan_parts :
    (∀ x ∈ straying.floats, x.isFinite = true) ∧
      ¬ ReadsParts SweepPlan.fieldNames straying.json.members straying.only sweepPlan := by
  refine ⟨by decide +kernel, ?_⟩
  -- The text with this start alone is read as another plan.
  intro reads
  have read := reads.object (· == "start") _ _ (straying.fills.presents _) (Json.read?_write _)
  have other : sweepPlan (Json.object [(some "start", straying.start.json)]).write ≠
      .ok straying := by
    decide +kernel
  exact other read

end Device

end Tendril
