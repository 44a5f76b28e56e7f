import Tendril.Host.Json
import Tendril.Plan.Growth
import Tendril.Plan.Sweep
import Tendril.Turtle.Json

/-!
# Plans in JSON

Every field of a plan may be left out, and then has the value it has in the standard plan; the parts
of a plan have to be complete. Null stands for a seed or a second outline that there is none of, and
for nothing else.
-/

namespace Tendril

open Json

namespace Outline

def json (o : Outline) : Json := .ofText o.name

def ofJson? (value : Json) : Option Outline := (choice? value).bind ofName?

end Outline

/-- How many arrays and objects a ramp and what surrounds it may have open at a time. -/
def nestingLimit : Nat := 127

namespace Ramp

def json : Ramp Float → Json
  | .constant value => .record [("type", .ofText "constant"), ("value", .ofFloat value)]
  | .linear offset slope =>
      .record [("type", .ofText "linear"), ("offset", .ofFloat offset), ("slope", .ofFloat slope)]

/-- Reads the numbers that go with a type of ramp, each of which has to be there. -/
def ofTag? (tag : String) (content : Json) : Option (Ramp Float) :=
  if tag = "constant" then do
    let field ← fields? ["value"] content
    return .constant (← required float? (field "value"))
  else if tag = "linear" then do
    let field ← fields? ["offset", "slope"] content
    return .linear (← required float? (field "offset")) (← required float? (field "slope"))
  else none

/-- Reads a ramp inside of `outer` open arrays and objects. Which fields it has depends on its type,
which may stand anywhere in an object, and comes before the fields in an array. So all that a ramp
holds is looked at, and has to be plain. -/
def ofJson? (outer : Nat) (value : Json) : Option (Ramp Float) :=
  match value with
  | .object members =>
      if membersArePlain (nestingLimit - outer - 1) members then do
        let tag ← (fields? ["type"] value).bind fun field => required text? (field "type")
        ofTag? tag value
      else none
  | .array (tag :: items) =>
      if arePlain (nestingLimit - outer - 1) items then do
        let tag ← text? tag
        ofTag? tag (.array items)
      else none
  | _ => none

end Ramp

namespace Profile

def json (p : Profile Float) : Json :=
  .record [
    ("kind", p.outline.json),
    ("radius", .ofFloat p.radius),
    ("resolution", .ofNat p.resolution.toNat),
    ("morph_to", (p.morphTo.map Outline.json).getD .null)]

def ofJson? (value : Json) : Option (Profile Float) := do
  let field ← fields? ["kind", "radius", "resolution", "morph_to"] value
  return {
    outline := ← required Outline.ofJson? (field "kind")
    radius := ← required float? (field "radius")
    resolution := ← required count? (field "resolution")
    morphTo := ← withDefault none (optional? Outline.ofJson?) (field "morph_to") }

end Profile

/-- A word as a string. -/
def wordJson (w : Word) : Json := .ofText (String.ofList w)

def word? (value : Json) : Option Word := (text? value).map String.toList

namespace RuleDraft

def json (d : RuleDraft) : Json :=
  .record [
    ("input", .ofText (String.singleton d.input)),
    ("outputs", .array (d.outputs.map wordJson))]

def ofJson? (value : Json) : Option RuleDraft := do
  let field ← fields? ["input", "outputs"] value
  return {
    input := ← required char? (field "input")
    outputs := ← required (list? word?) (field "outputs") }

end RuleDraft

namespace Rule

def json (r : Rule) : Json := r.draft.json

/-- Reads a rule, which is a draft with at least one output. -/
def ofJson? (value : Json) : Option Rule :=
  (RuleDraft.ofJson? value).bind RuleDraft.rule?

end Rule

namespace SweepPlan

/-- The fields in the order in which an array gives them. -/
def fieldNames : List String :=
  ["start", "tangent", "normal", "max_iterations", "displacement", "coiling_rate",
   "coiling_radius", "scaling_factor", "profile"]

def json (p : SweepPlan Float) : Json :=
  .record [
    ("start", p.start.json),
    ("tangent", p.tangent.json),
    ("normal", p.normal.json),
    ("max_iterations", .ofNat p.maxIterations.toNat),
    ("displacement", p.displacement.json),
    ("coiling_rate", p.coilingRate.json),
    ("coiling_radius", p.coilingRadius.json),
    ("scaling_factor", p.scaling.json),
    ("profile", p.profile.json)]

def ofJson? (value : Json) : Option (SweepPlan Float) := do
  let field ← fields? fieldNames value
  let usual : SweepPlan Float := standard
  return {
    start := ← withDefault usual.start Vec3.ofJson? (field "start")
    tangent := ← withDefault usual.tangent Vec3.ofJson? (field "tangent")
    normal := ← withDefault usual.normal Vec3.ofJson? (field "normal")
    maxIterations := ← withDefault usual.maxIterations count? (field "max_iterations")
    displacement := ← withDefault usual.displacement (Ramp.ofJson? 1) (field "displacement")
    coilingRate := ← withDefault usual.coilingRate (Ramp.ofJson? 1) (field "coiling_rate")
    coilingRadius := ← withDefault usual.coilingRadius (Ramp.ofJson? 1) (field "coiling_radius")
    scaling := ← withDefault usual.scaling (Ramp.ofJson? 1) (field "scaling_factor")
    profile := ← withDefault usual.profile Profile.ofJson? (field "profile") }

end SweepPlan

namespace GrowthPlan

/-- The fields in the order in which an array gives them. -/
def fieldNames : List String :=
  ["axiom", "rules", "iterations", "seed", "origin", "tangent", "normal", "turn_angle",
   "branch_length", "branch", "output"]

def json (p : GrowthPlan Float) : Json :=
  .record [
    ("axiom", wordJson p.seedWord),
    ("rules", .array (p.rules.map RuleDraft.json)),
    ("iterations", .ofNat p.iterations.toNat),
    ("seed", (p.seed.map fun seed => .ofNat seed.toNat).getD .null),
    ("origin", p.origin.json),
    ("tangent", p.tangent.json),
    ("normal", p.normal.json),
    ("turn_angle", .ofFloat p.turnAngle),
    ("branch_length", .ofFloat p.branchLength),
    ("branch", p.style.json),
    ("output", p.delivery.json)]

def ofJson? (value : Json) : Option (GrowthPlan Float) := do
  let field ← fields? fieldNames value
  let usual : GrowthPlan Float := standard
  return {
    seedWord := ← withDefault usual.seedWord word? (field "axiom")
    rules := ← withDefault usual.rules (list? RuleDraft.ofJson?) (field "rules")
    iterations := ← withDefault usual.iterations count? (field "iterations")
    seed := ← withDefault usual.seed (optional? count?) (field "seed")
    origin := ← withDefault usual.origin Vec3.ofJson? (field "origin")
    tangent := ← withDefault usual.tangent Vec3.ofJson? (field "tangent")
    normal := ← withDefault usual.normal Vec3.ofJson? (field "normal")
    turnAngle := ← withDefault usual.turnAngle float? (field "turn_angle")
    branchLength := ← withDefault usual.branchLength float? (field "branch_length")
    style := ← withDefault usual.style TubeStyle.ofJson? (field "branch")
    delivery := ← withDefault usual.delivery Delivery.ofJson? (field "output") }

end GrowthPlan

end Tendril
