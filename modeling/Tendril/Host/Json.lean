import Tendril.Host.Scene
import Tendril.Mesh.Json

/-!
# Scenes in JSON
-/

namespace Tendril

open Json

namespace MeshId

def json (id : MeshId) : Json := .ofNat id.position

def ofJson? (value : Json) : Option MeshId := (count? value).map fun n => ⟨n.toNat⟩

end MeshId

namespace Scene

def json (s : Scene Float) : Json :=
  .record [("name", .ofText s.name), ("meshes", .array (s.meshes.toList.map Mesh.json))]

def ofJson? (value : Json) : Option (Scene Float) := do
  let field ← fields? ["name", "meshes"] value
  return {
    name := ← required text? (field "name")
    meshes := (← required (list? Mesh.ofJson?) (field "meshes")).toArray }

end Scene

namespace Delivery

def json (d : Delivery) : Json := .ofText d.name

def ofJson? (value : Json) : Option Delivery := (choice? value).bind ofName?

end Delivery

end Tendril
