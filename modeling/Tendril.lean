import Tendril.Failure
import Tendril.Mesh.Bounds
import Tendril.Mesh.Flat
import Tendril.Mesh.Cuboid
import Tendril.Random.KeyStream
import Tendril.Grammar.Basic
import Tendril.Outline.Points
import Tendril.Sweep.Tube
import Tendril.Turtle.Basic
import Tendril.Host.Scene
import Tendril.Plan.Sweep
import Tendril.Plan.Growth
import Tendril.Json.Parser
import Tendril.Json.Printer
import Tendril.Json.Record
import Tendril.Plan.Device
import Tendril.Proofs.Grammar.Nesting
import Tendril.Proofs.Grammar.Substitution
import Tendril.Proofs.Failure
import Tendril.Proofs.Turtle.Effect
import Tendril.Proofs.Turtle.Depth
import Tendril.Proofs.Grammar.Draft
import Tendril.Proofs.Plan.Growth
import Tendril.Proofs.Turtle.Journey
import Tendril.Proofs.Turtle.Stack
import Tendril.Proofs.Sweep.Band
import Tendril.Proofs.Sweep.Tube
import Tendril.Proofs.Sweep.Profile
import Tendril.Proofs.Sweep.Valid
import Tendril.Proofs.Plan.Sweep
import Tendril.Proofs.Mesh.Surface
import Tendril.Proofs.Sweep.Surface
import Tendril.Proofs.Turtle.Fault
import Tendril.Proofs.Host.Scene
import Tendril.Proofs.Plan.Refusal
import Tendril.Proofs.Mesh.Flat
import Tendril.Proofs.Turtle.Tube
import Tendril.Proofs.Turtle.Segments
import Tendril.Proofs.Grammar.Single
import Tendril.Proofs.Plan.Delivery
import Tendril.Proofs.Decimal.Numeral
import Tendril.Proofs.Json.Text
import Tendril.Proofs.Json.Token
import Tendril.Proofs.Json.Parser
import Tendril.Proofs.Json.Record
import Tendril.Proofs.Plan.Json
import Tendril.Proofs.Plan.Reading
import Tendril.Proofs.Plan.Yield
import Tendril.Proofs.Mesh.Parts
import Tendril.Proofs.Plan.Choice
import Tendril.Proofs.Sweep.Degenerate
import Tendril.Proofs.Mesh.Consistent
import Tendril.Proofs.Plan.Output
import Tendril.Proofs.Plan.Kind
import Tendril.Proofs.Host.Calls
import Tendril.Proofs.Plan.Handover
import Tendril.Proofs.Host.History
import Tendril.Proofs.Guarded.Basic
import Tendril.Proofs.Guarded.Mesh
import Tendril.Proofs.Guarded.Sweep
import Tendril.Proofs.Guarded.Grammar
import Tendril.Proofs.Guarded.Turtle
import Tendril.Proofs.Guarded.Device
import Tendril.Proofs.Grammar.Symbols
import Tendril.Proofs.Plan.Koch
import Tendril.Proofs.Turtle.Frames
import Tendril.Proofs.Exact.Vector
import Tendril.Proofs.Exact.Frame
import Tendril.Proofs.Turtle.InPlace
import Tendril.Proofs.Turtle.Heading
import Tendril.Proofs.Turtle.Outcome
import Tendril.Proofs.Grammar.InTurn
import Tendril.Proofs.Sweep.Outcome
import Tendril.Proofs.Sweep.History
import Tendril.Proofs.Turtle.Cylinder
import Tendril.Proofs.Grammar.Linear
import Tendril.Proofs.Grammar.AtOnce
import Tendril.Proofs.Grammar.Bounds
import Tendril.Proofs.Sweep.Morph
import Tendril.Proofs.Mesh.Triangles
import Tendril.Proofs.Mesh.Construction
import Tendril.Proofs.Host.Json
import Tendril.Proofs.Grammar.Origin
import Tendril.Proofs.Double.Order
import Tendril.Proofs.Mesh.Bounds
import Tendril.Proofs.Turtle.Settings
import Tendril.Proofs.Exact.Skewed
import Tendril.Proofs.Exact.Turns
import Tendril.Proofs.Sweep.Built
import Tendril.Proofs.Exact.Axis
import Tendril.Proofs.Exact.Rings
import Tendril.Proofs.Exact.Tube
import Tendril.Proofs.Exact.Moved
import Tendril.Proofs.Exact.Outline
import Tendril.Proofs.Outline.Sides
import Tendril.Proofs.Exact.Outline
