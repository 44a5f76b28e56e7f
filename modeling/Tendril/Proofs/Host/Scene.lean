import Tendril.Host.Scene
import Tendril.Proofs.Failure

/-!
# Hosts that refuse nothing

Handing meshes over fails only where a sink refuses one. Scenes and flat lists take every mesh, so a
run that hands its meshes to one of them fails for reasons of its own or not at all.
-/

namespace Tendril

variable {α τ η : Type}

namespace Sink

/-- A sink that takes every mesh, whatever its state. -/
def Accepts (sink : Sink α τ η) : Prop := ∀ m s, failure? (sink.create m s).1 = none

theorem Accepts.createAll {sink : Sink α τ η} (accepts : sink.Accepts) (meshes : List (Mesh α))
    (s : τ) : failure? (sink.createAll meshes s).1 = none := by
  induction meshes generalizing s with
  | nil => rfl
  | cons m rest ih =>
      obtain ⟨handle, taken⟩ := failure?_eq_none_iff.mp (accepts m s)
      obtain ⟨handles, followed⟩ := failure?_eq_none_iff.mp (ih (sink.create m s).2)
      unfold Sink.createAll
      split
      case h_1 refused =>
        rw [refused] at taken
        cases taken
      case h_2 created =>
        rw [created] at followed
        simp [followed, Except.map]

theorem Accepts.submit {sink : Sink α τ η} (accepts : sink.Accepts) (delivery : Delivery)
    (meshes : List (Mesh α)) (s : τ) : failure? (sink.submit delivery meshes s).1 = none := by
  cases delivery with
  | perSegment => exact accepts.createAll meshes s
  | merged => exact accepts.createAll [.mergeAll meshes] s

end Sink

theorem Scene.sink_accepts : (sink : Sink α (Scene α) MeshId).Accepts := fun _ _ => rfl

namespace FlatList

theorem sink_accepts : sink.Accepts := fun _ _ => rfl

/-- A flat list keeps all meshes in order, behind those that it has. -/
theorem createAll_list (meshes : List (Mesh Float)) (l : FlatList) :
    (sink.createAll meshes l).2 = ⟨l.meshes ++ (meshes.map FlatMesh.ofMesh).toArray⟩ := by
  induction meshes generalizing l with
  | nil => simp [Sink.createAll]
  | cons m rest ih =>
      show (sink.createAll rest (l.add m).2).2 = _
      rw [ih]
      simp [add]

end FlatList

end Tendril
