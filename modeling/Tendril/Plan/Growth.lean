import Tendril.Grammar.Basic
import Tendril.Host.Sink
import Tendril.Random.KeyStream
import Tendril.Turtle.Basic

/-!
# Growth plans

A whole drawing as a value: a grammar, how often to iterate it, and the turtle that draws the word.
A plan with a seed brings its own random words; one without draws from the source it is given.
-/

namespace Tendril

open Scalar

variable {α : Type} [Scalar α]

/-- A growth written down. -/
structure GrowthPlan (α : Type) where
  seedWord : Word
  rules : List RuleDraft
  iterations : UInt64
  seed : Option UInt64
  origin : Vec3 α
  tangent : Vec3 α
  normal : Vec3 α
  turnAngle : α
  branchLength : α
  style : TubeStyle α
  delivery : Delivery
  deriving DecidableEq

namespace GrowthPlan

/-- A single segment. -/
def standard : GrowthPlan α where
  seedWord := ['F']
  rules := []
  iterations := 1
  seed := none
  origin := .origin
  tangent := .unitZ
  normal := .unitX
  turnAngle := defaultTurnAngle
  branchLength := defaultBranchLength
  style := .standard
  delivery := .standard

/-- A closed curve of which every segment is replaced by eight, again and again. -/
def koch (iterations : UInt64) : GrowthPlan α :=
  { standard with
    seedWord := "F^F^F^F".toList
    rules := [.simple 'F' "F^F&F&FF^F^F&F".toList]
    iterations
    tangent := .unitX
    normal := .unitY }

/-- The grammar, before its first iteration. -/
def grammar (p : GrowthPlan α) : Except (Failure α) Grammar := do
  let rules ← p.rules.mapM RuleDraft.rule
  return .ofRules p.seedWord rules

/-- The settings that the plan makes, the others being standard. -/
def settings (p : GrowthPlan α) : Settings α :=
  { (Settings.standard : Settings α) with
    branchLength := p.branchLength
    turnAngle := p.turnAngle
    branchRadius := p.style.radius
    branchResolution := p.style.resolution }

/-- The turtle, before its first step. -/
def turtle (p : GrowthPlan α) : Except (Failure α) (Turtle α) :=
  Turtle.ofSettings p.origin p.tangent p.normal p.settings

variable {σ : Type} [WordSource σ]

/-- The word that the grammar comes to. -/
def expand (p : GrowthPlan α) (source : σ) : Except (Failure α) Word := do
  let grammar ← p.grammar
  match p.seed with
  | some seed => return (grammar.iterate p.iterations.toNat (KeyStream.ofSeed seed)).1.current
  | none => return (grammar.iterate p.iterations.toNat source).1.current

/-- The segments that the turtle draws. -/
def segments (p : GrowthPlan α) (source : σ) : Except (Failure α) (List (Mesh α)) := do
  let word ← p.expand source
  let turtle ← p.turtle
  (turtle.draw word).result

/-- Hands the segments to a sink as the plan says; a plan that cannot be carried out leaves the sink
alone. -/
def submit {τ η : Type} (p : GrowthPlan α) (source : σ) (sink : Sink α τ η) (s : τ) :
    Except (Failure α) (List η) × τ :=
  match p.segments source with
  | .error failure => (.error failure, s)
  | .ok meshes => sink.submit p.delivery meshes s

end GrowthPlan

end Tendril
