import Tendril.Proofs.Sweep.History

/-!
# Axes that can be had

An axis is made from a place, two directions and a cross-section. Later on some of its parameters may
be replaced and requests made of it, in any order. None of this touches its frame: the axis
stays the one that was made, but for its parameters and for where it stands.
-/

namespace Tendril

variable {α : Type} [Scalar α]

namespace CoilAxis

/-- The axes that can be had from what an axis is made of. -/
inductive Built (start tangent normal : Vec3 α) (s : Section α) (maxIterations : Nat) :
    CoilAxis α → Prop
  | make {axis : CoilAxis α} (made : CoilAxis.make start tangent normal s maxIterations = .ok axis) :
      Built start tangent normal s maxIterations axis
  /-- Parameters that are to stay are replaced by themselves. -/
  | withParams {axis : CoilAxis α} (built : Built start tangent normal s maxIterations axis)
      (displacement coilingRate coilingRadius scaling : Param α) :
      Built start tangent normal s maxIterations
        { axis with displacement, coilingRate, coilingRadius, scaling }
  | after {axis : CoilAxis α} (built : Built start tangent normal s maxIterations axis)
      (request : Request) : Built start tangent normal s maxIterations (axis.after request)

/-- The frame of an axis is the one that it was made with. -/
theorem Built.framed {start tangent normal : Vec3 α} {s : Section α} {maxIterations : Nat}
    {axis : CoilAxis α} (built : Built start tangent normal s maxIterations axis) :
    ∃ bare, CoilAxis.make start tangent normal s maxIterations = .ok bare ∧
      axis = { bare with
        displacement := axis.displacement
        coilingRate := axis.coilingRate
        coilingRadius := axis.coilingRadius
        scaling := axis.scaling
        iteration := axis.iteration } := by
  induction built with
  | make made => exact ⟨_, made, rfl⟩
  | withParams _ _ _ _ _ ih =>
      obtain ⟨bare, made, same⟩ := ih
      exact ⟨bare, made, by rw [same]⟩
  | @after axis _ request ih =>
      obtain ⟨bare, made, same⟩ := ih
      refine ⟨bare, made, ?_⟩
      rw [after_eq axis request, same]
      rfl

end CoilAxis

end Tendril
