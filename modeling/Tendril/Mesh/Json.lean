import Tendril.Json.Record
import Tendril.Mesh.Basic

/-!
# Meshes in JSON

Points are arrays of three numbers, edges and quads arrays of indices. A coordinate that is no
number is written as null, and null is not read back.
-/

namespace Tendril

open Json

namespace Vec3

def json (p : Vec3 Float) : Json := .array [.ofFloat p.x, .ofFloat p.y, .ofFloat p.z]

def ofJson? : Json → Option (Vec3 Float)
  | .array [x, y, z] => do return ⟨← float? x, ← float? y, ← float? z⟩
  | _ => none

end Vec3

def indexJson (i : Index) : Json := .ofNat i.toNat

namespace Edge

def json (e : Edge) : Json := .array (e.indices.map indexJson)

def ofJson? : Json → Option Edge
  | .array [a, b] => do return ⟨← index? a, ← index? b⟩
  | _ => none

end Edge

namespace Quad

def json (q : Quad) : Json := .array (q.indices.map indexJson)

def ofJson? : Json → Option Quad
  | .array [a, b, c, d] => do return ⟨← index? a, ← index? b, ← index? c, ← index? d⟩
  | _ => none

end Quad

namespace Mesh

def json (m : Mesh Float) : Json :=
  .record [
    ("vertices", .array (m.vertices.toList.map Vec3.json)),
    ("edges", .array (m.edges.toList.map Edge.json)),
    ("faces", .array (m.quads.toList.map Quad.json))]

def ofJson? (value : Json) : Option (Mesh Float) := do
  let field ← fields? ["vertices", "edges", "faces"] value
  return {
    vertices := (← required (list? Vec3.ofJson?) (field "vertices")).toArray
    edges := (← required (list? Edge.ofJson?) (field "edges")).toArray
    quads := (← required (list? Quad.ofJson?) (field "faces")).toArray }

end Mesh

end Tendril
