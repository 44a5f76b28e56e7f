import Tendril.Mesh.Json
import Tendril.Turtle.Frame
import Tendril.Turtle.Tube

/-!
# Frames and tube styles in JSON
-/

namespace Tendril

open Json

namespace Frame

def json (f : Frame Float) : Json :=
  .record [
    ("location", f.location.json),
    ("tangent", f.tangent.json),
    ("normal", f.normal.json),
    ("binormal", f.binormal.json)]

def ofJson? (value : Json) : Option (Frame Float) := do
  let field ← fields? ["location", "tangent", "normal", "binormal"] value
  return {
    location := ← required Vec3.ofJson? (field "location")
    tangent := ← required Vec3.ofJson? (field "tangent")
    normal := ← required Vec3.ofJson? (field "normal")
    binormal := ← required Vec3.ofJson? (field "binormal") }

end Frame

namespace TubeStyle

def json (s : TubeStyle Float) : Json :=
  .record [("radius", .ofFloat s.radius), ("resolution", .ofNat s.resolution.toNat)]

def ofJson? (value : Json) : Option (TubeStyle Float) := do
  let field ← fields? ["radius", "resolution"] value
  return {
    radius := ← required float? (field "radius")
    resolution := ← required count? (field "resolution") }

end TubeStyle

end Tendril
