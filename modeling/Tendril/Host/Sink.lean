import Tendril.Failure
import Tendril.Mesh.Basic

/-!
# Sinks

Where finished meshes go. A sink is a state and a step that takes one mesh, answers a handle to it
or refuses it, and leaves the next state. Several meshes are handed over one by one, up to the first
that is refused, or as one.
-/

namespace Tendril

variable {α σ η : Type}

/-- A host that takes meshes. -/
structure Sink (α σ η : Type) where
  create : Mesh α → σ → Except (Failure α) η × σ

/-- How several meshes are handed over. -/
inductive Delivery where
  | perSegment
  | merged
  deriving DecidableEq, Repr

namespace Delivery

/-- Everything in one mesh, unless told otherwise. -/
def standard : Delivery := .merged

def name : Delivery → String
  | .perSegment => "per_segment"
  | .merged => "merged"

def ofName? (name : String) : Option Delivery :=
  [perSegment, merged].find? fun delivery => delivery.name = name

end Delivery

namespace Sink

/-- Hands meshes over in order, up to the first refusal. -/
def createAll (sink : Sink α σ η) : List (Mesh α) → σ → Except (Failure α) (List η) × σ
  | [], s => (.ok [], s)
  | m :: rest, s =>
      match sink.create m s with
      | (.error failure, s) => (.error failure, s)
      | (.ok handle, s) =>
          let (handles, s) := sink.createAll rest s
          (handles.map (handle :: ·), s)

/-- Hands meshes over one by one or joined together. No meshes join to an empty one. -/
def submit (sink : Sink α σ η) (delivery : Delivery) (meshes : List (Mesh α)) (s : σ) :
    Except (Failure α) (List η) × σ :=
  match delivery with
  | .perSegment => sink.createAll meshes s
  | .merged => sink.createAll [Mesh.mergeAll meshes] s

end Sink

end Tendril
