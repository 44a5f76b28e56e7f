import Tendril.Proofs.Plan.Handover

/-!
# Hosts and their handles

A host can be asked for one thing after another: to take a mesh, several of them, or what a plan
comes to. A host that keeps what it is given, in order, answers with the number of meshes that were
there before, whatever the history of requests and whichever of them fail. Handles are therefore
never given twice, and each goes on to give the mesh that was kept under it.
-/

namespace Tendril

variable {α τ η β : Type}

namespace Sink

/-! ## Histories of requests -/

/-- What a host can be asked for. -/
inductive Request (α : Type) : Type 1 where
  | create (m : Mesh α)
  | submit (delivery : Delivery) (meshes : List (Mesh α))
  | sweep (plan : SweepPlan α)
  | growth {ρ : Type} [WordSource ρ] (plan : GrowthPlan α) (source : ρ)

/-- The handles that an answer brings; a failure brings none. -/
def returned : Except (Failure α) (List η) → List η
  | .ok handles => handles
  | .error _ => []

/-- All that is taken of meshes handed over in turn is told, if nothing is refused. -/
theorem InTurn.returned_eq {meshes : List (Mesh α)} {calls : List (Call α τ η)}
    {answer : Except (Failure α) (List η)} (inTurn : InTurn meshes calls answer)
    (accepted : ∀ call ∈ calls, ∃ handle, call.answer = .ok handle) :
    calls.map Call.answer = (returned answer).map .ok := by
  cases answer with
  | ok handles =>
      cases inTurn with
      | taken _ answers => exact answers
  | error failure =>
      obtain ⟨call, member, refused⟩ := inTurn.refused_mem
      obtain ⟨handle, taken⟩ := accepted call member
      rw [taken] at refused
      cases refused

/-- The same of a single call. -/
theorem returned_single {call : Call α τ η}
    (accepted : ∀ other ∈ [call], ∃ handle, other.answer = .ok handle) :
    [call].map Call.answer = (returned (call.answer.map fun handle => [handle])).map .ok := by
  obtain ⟨handle, taken⟩ := accepted call List.mem_cons_self
  rw [List.map_singleton, taken]
  rfl

variable [Scalar α]

namespace Request

/-- What a request comes to. -/
def carry : Request α → Run α η (Except (Failure α) (List η))
  | .create m => fun _ k t => ((k.create m t).1.map fun handle => [handle], (k.create m t).2)
  | .submit delivery meshes => fun _ k t => k.submit delivery meshes t
  | .sweep plan => fun _ k t =>
      ((plan.submit k t).1.map fun handle => [handle], (plan.submit k t).2)
  | @Request.growth _ _ _ plan source => fun _ k t => plan.submit source k t

/-- What requests come to, one after the other. -/
def carryAll : List (Request α) → Run α η (List (Except (Failure α) (List η)))
  | [] => fun _ _ t => ([], t)
  | request :: rest => fun τ k t =>
      let (answer, t) := request.carry τ k t
      let (answers, t) := carryAll rest τ k t
      (answer :: answers, t)

theorem carryAll_append (front behind : List (Request α)) (sink : Sink α τ η) (s : τ) :
    (carryAll (front ++ behind) τ sink s).2 =
      (carryAll behind τ sink (carryAll front τ sink s).2).2 := by
  induction front generalizing s with
  | nil => rfl
  | cons request front ih => exact ih (request.carry τ sink s).2

variable {sink : Sink α τ η}

/-- A sink that refuses nothing tells all the handles that a request is answered with. -/
theorem carry_makes (request : Request α) (accepts : sink.Accepts) (s : τ) :
    ∃ calls answer last, sink.Makes request.carry s calls answer last ∧
      calls.map Call.answer = (returned answer).map .ok := by
  cases request with
  | create m =>
      have made := (Makes.create (rfl : sink.create m s = (_, _))).map
        fun answer => answer.map fun handle => [handle]
      exact ⟨_, _, _, made, returned_single (made.trail.accepted accepts)⟩
  | submit delivery meshes =>
      obtain ⟨calls, answer, last, made, _, inTurn⟩ :
          ∃ calls answer last, sink.Makes (fun _ k => k.submit delivery meshes) s calls answer last ∧
            ∃ delivered, InTurn delivered calls answer := by
        cases delivery with
        | perSegment =>
            obtain ⟨calls, answer, last, made, inTurn⟩ := sink.createAll_makes meshes s
            exact ⟨calls, answer, last, made, meshes, inTurn⟩
        | merged =>
            obtain ⟨calls, answer, last, made, inTurn⟩ :=
              sink.createAll_makes [Mesh.mergeAll meshes] s
            exact ⟨calls, answer, last, made, _, inTurn⟩
      exact ⟨calls, answer, last, made, inTurn.returned_eq (made.trail.accepted accepts)⟩
  | sweep plan =>
      obtain ⟨calls, answer, last, made, handover⟩ := plan.submit_makes sink s
      refine ⟨calls, _, last, made.map _, ?_⟩
      cases handover with
      | failed refused => rfl
      | made swept => exact returned_single (made.trail.accepted accepts)
  | growth plan source =>
      obtain ⟨calls, answer, last, made, handover⟩ := plan.submit_makes source sink s
      refine ⟨calls, answer, last, made, ?_⟩
      cases handover with
      | failed refused => rfl
      | merged _ _ _ => exact returned_single (made.trail.accepted accepts)
      | perSegment _ _ inTurn => exact inTurn.returned_eq (made.trail.accepted accepts)

theorem carryAll_makes (requests : List (Request α)) (accepts : sink.Accepts) (s : τ) :
    ∃ calls answers last, sink.Makes (carryAll requests) s calls answers last ∧
      calls.map Call.answer = (answers.flatMap returned).map .ok := by
  induction requests generalizing s with
  | nil => exact ⟨[], [], s, .idle _, rfl⟩
  | cons request rest ih =>
      obtain ⟨calls, answer, mid, made, told⟩ := request.carry_makes accepts s
      obtain ⟨later, answers, last, followed, toldLater⟩ := ih mid
      refine ⟨calls ++ later, answer :: answers, last, ?_, ?_⟩
      · exact made.andThen
          (fun answer τ k t => (answer :: (carryAll rest τ k t).1, (carryAll rest τ k t).2))
          (followed.map _)
      · rw [List.map_append, told, toldLater, List.flatMap_cons, List.map_append]

end Request

end Sink

/-! ## Hosts that keep what they are given -/

/-- A host as it is seen from outside: how many meshes it holds, what it gives for a handle, in what
form it keeps a mesh, and which number a handle is. -/
structure Shelf (α τ η β : Type) where
  sink : Sink α τ η
  size : τ → Nat
  get? : τ → η → Option β
  form : Mesh α → β
  number : η → Nat

/-- A host that takes every mesh, puts it behind those that it has, and answers where it is. -/
structure Shelf.Keeps (shelf : Shelf α τ η β) : Prop where
  injective : Function.Injective shelf.number
  taken : ∀ m s, ∃ handle, (shelf.sink.create m s).1 = .ok handle ∧
    shelf.number handle = shelf.size s
  size : ∀ m s, shelf.size (shelf.sink.create m s).2 = shelf.size s + 1
  get? : ∀ m s handle, shelf.get? (shelf.sink.create m s).2 handle =
    if shelf.number handle = shelf.size s then some (shelf.form m) else shelf.get? s handle

namespace Shelf.Keeps

open Sink

variable {shelf : Shelf α τ η β} {s last : τ} {calls : List (Call α τ η)}

theorem accepts (keeps : shelf.Keeps) : shelf.sink.Accepts := by
  intro m s
  obtain ⟨handle, taken, _⟩ := keeps.taken m s
  rw [taken, failure?_ok]

/-- What a single call comes to. -/
theorem create (keeps : shelf.Keeps) {next : τ} {m : Mesh α} {answer : Except (Failure α) η}
    (created : shelf.sink.create m s = (answer, next)) :
    (∃ handle, answer = .ok handle ∧ shelf.number handle = shelf.size s) ∧
      shelf.size next = shelf.size s + 1 ∧
      ∀ handle, shelf.get? next handle =
        if shelf.number handle = shelf.size s then some (shelf.form m) else shelf.get? s handle := by
  have taken := keeps.taken m s
  have grown := keeps.size m s
  have kept := keeps.get? m s
  rw [created] at taken grown kept
  exact ⟨taken, grown, kept⟩

theorem size_of_trail (keeps : shelf.Keeps) (trail : shelf.sink.Trail s calls last) :
    shelf.size last = shelf.size s + calls.length := by
  induction trail with
  | done s => rfl
  | call created _ ih =>
      obtain ⟨_, grown, _⟩ := keeps.create created
      rw [ih, grown, List.length_cons, Nat.add_assoc, Nat.add_comm 1]

/-- Handles count on from the number of meshes that are there. -/
theorem numbers_of_trail (keeps : shelf.Keeps) (trail : shelf.sink.Trail s calls last)
    {handles : List η} (answers : calls.map Call.answer = handles.map .ok) :
    handles.map shelf.number = List.range' (shelf.size s) calls.length := by
  induction trail generalizing handles with
  | done s =>
      obtain rfl := List.map_eq_nil_iff.mp answers.symm
      rfl
  | call created _ ih =>
      obtain ⟨handle, rest, rfl, first, others⟩ := List.map_eq_cons_iff.mp answers.symm
      obtain ⟨⟨_, taken, numbered⟩, grown, _⟩ := keeps.create created
      cases first.trans taken
      rw [List.map_cons, List.length_cons, List.range'_succ, numbered, ih others.symm, grown]

/-- What a host holds stays where it is. -/
theorem get?_of_lt (keeps : shelf.Keeps) (trail : shelf.sink.Trail s calls last) {handle : η}
    (held : shelf.number handle < shelf.size s) :
    shelf.get? last handle = shelf.get? s handle := by
  induction trail with
  | done s => rfl
  | call created _ ih =>
      obtain ⟨_, grown, kept⟩ := keeps.create created
      rw [ih (by rw [grown]; exact Nat.lt_succ_of_lt held), kept, if_neg (Nat.ne_of_lt held)]

/-- Nothing is put under a handle that no call answers. -/
theorem get?_of_not_mem (keeps : shelf.Keeps) (trail : shelf.sink.Trail s calls last)
    {handles : List η} (answers : calls.map Call.answer = handles.map .ok) {handle : η}
    (other : handle ∉ handles) : shelf.get? last handle = shelf.get? s handle := by
  induction trail generalizing handles with
  | done s => rfl
  | @call s _ _ _ _ _ created _ ih =>
      obtain ⟨here, rest, rfl, first, others⟩ := List.map_eq_cons_iff.mp answers.symm
      rw [List.mem_cons, not_or] at other
      obtain ⟨⟨_, taken, numbered⟩, _, kept⟩ := keeps.create created
      cases first.trans taken
      have elsewhere : shelf.number handle ≠ shelf.size s := by
        rw [← numbered]
        exact fun same => other.1 (keeps.injective same)
      rw [ih others.symm other.2, kept, if_neg elsewhere]

/-- The handle that a call answers is the number of meshes before it, and gives what was handed
over. -/
theorem get?_of_mem (keeps : shelf.Keeps) (trail : shelf.sink.Trail s calls last)
    {call : Call α τ η} (member : call ∈ calls) {handle : η} (answered : call.answer = .ok handle) :
    shelf.number handle = shelf.size call.found ∧ shelf.number handle < shelf.size last ∧
      shelf.get? last handle = some (shelf.form call.mesh) := by
  induction trail with
  | done s => exact absurd member List.not_mem_nil
  | @call s next last _ _ _ created later ih =>
      rcases List.mem_cons.mp member with rfl | among
      · obtain ⟨⟨_, taken, numbered⟩, grown, kept⟩ := keeps.create created
        cases answered.symm.trans taken
        have inside : shelf.number handle < shelf.size next := by
          rw [numbered, grown]
          exact Nat.lt_succ_self _
        have onward : shelf.size next ≤ shelf.size last := by
          rw [keeps.size_of_trail later]
          exact Nat.le_add_right ..
        refine ⟨numbered, inside.trans_le onward, ?_⟩
        rw [keeps.get?_of_lt later inside, kept, if_pos numbered]
      · exact ih among

end Shelf.Keeps

variable [Scalar α]

/-- How a host stands after a history of requests. -/
structure Shelf.Stands (shelf : Shelf α τ η β) (start : τ) (requests : List (Sink.Request α))
    (calls : List (Sink.Call α τ η)) (answers : List (Except (Failure α) (List η))) (last : τ) :
    Prop where
  makes : shelf.sink.Makes (Sink.Request.carryAll requests) start calls answers last
  /-- Every handle that a call answers is told, in order. -/
  told : calls.map Sink.Call.answer = (answers.flatMap Sink.returned).map .ok
  distinct : (answers.flatMap Sink.returned).Nodup
  numbered : ∀ call ∈ calls, ∀ handle, call.answer = .ok handle →
    shelf.number handle = shelf.size call.found
  /-- A handle goes on to give its mesh, whatever is asked for later. -/
  kept : ∀ call ∈ calls, ∀ handle, call.answer = .ok handle → ∀ later,
    shelf.get? (Sink.Request.carryAll (requests ++ later) τ shelf.sink start).2 handle =
      some (shelf.form call.mesh)
  size : shelf.size last = shelf.size start + calls.countP fun call => call.answer.isOk
  others : ∀ handle, handle ∉ answers.flatMap Sink.returned →
    shelf.get? last handle = shelf.get? start handle

/-- A host that keeps what it is given stands so after every history. -/
theorem Shelf.Keeps.stands {shelf : Shelf α τ η β} (keeps : shelf.Keeps) (start : τ)
    (requests : List (Sink.Request α)) :
    ∃ calls answers last, shelf.Stands start requests calls answers last := by
  obtain ⟨calls, answers, last, made, told⟩ :=
    Sink.Request.carryAll_makes requests keeps.accepts start
  have numbers := keeps.numbers_of_trail made.trail told
  refine ⟨calls, answers, last, made, told, ?_, ?_, ?_, ?_, ?_⟩
  · refine List.Nodup.of_map shelf.number ?_
    rw [numbers]
    exact List.nodup_range'
  · exact fun call member handle answered =>
      (keeps.get?_of_mem made.trail member answered).1
  · intro call member handle answered later
    obtain ⟨_, held, kept⟩ := keeps.get?_of_mem made.trail member answered
    obtain ⟨_, _, final, madeLater, _⟩ :=
      Sink.Request.carryAll_makes later keeps.accepts last
    rw [Sink.Request.carryAll_append, made.plain, madeLater.plain,
      keeps.get?_of_lt madeLater.trail held, kept]
  · rw [keeps.size_of_trail made.trail, List.countP_eq_length.mpr]
    intro call member
    obtain ⟨handle, taken⟩ := made.trail.accepted keeps.accepts call member
    rw [taken]
    rfl
  · exact fun handle other => keeps.get?_of_not_mem made.trail told other

/-- A scene keeps the meshes themselves. -/
def Scene.shelf : Shelf α (Scene α) MeshId (Mesh α) where
  sink := Scene.sink
  size := Scene.size
  get? := Scene.get?
  form := id
  number := MeshId.position

/-- A flat list keeps the flat forms of meshes. -/
def FlatList.shelf : Shelf Float FlatList Nat FlatMesh where
  sink := FlatList.sink
  size := FlatList.size
  get? := FlatList.get?
  form := .ofMesh
  number := id

omit [Scalar α] in
theorem Scene.keeps : (shelf : Shelf α (Scene α) MeshId (Mesh α)).Keeps where
  injective a b same := by
    cases a
    cases same
    rfl
  taken _ s := ⟨⟨s.size⟩, rfl, rfl⟩
  size _ _ := Array.size_push ..
  get? _ _ _ := Array.getElem?_push

theorem FlatList.keeps : shelf.Keeps where
  injective := Function.injective_id
  taken _ l := ⟨l.size, rfl, rfl⟩
  size _ _ := Array.size_push ..
  get? _ _ _ := Array.getElem?_push

/-- After every history of requests, the handles that a scene or a flat list has told are distinct,
count the meshes that were there before, and give the meshes that they were told for; what else it
gives is what it gave before. A new one has nothing to give. -/
theorem Sink.handles_stand (requests : List (Sink.Request Float)) :
    (∀ start : Scene Float, ∃ calls answers last,
        Scene.shelf.Stands start requests calls answers last ∧ last.name = start.name) ∧
      (∀ start : FlatList, ∃ calls answers last,
        FlatList.shelf.Stands start requests calls answers last) ∧
      (∀ name, (Scene.named name : Scene Float).size = 0 ∧
        ∀ id, (Scene.named name : Scene Float).get? id = none) ∧
      FlatList.empty.size = 0 ∧ ∀ handle, FlatList.empty.get? handle = none := by
  refine ⟨fun start => ?_, fun start => FlatList.keeps.stands start requests,
    fun _ => ⟨rfl, fun _ => rfl⟩, rfl, fun _ => rfl⟩
  obtain ⟨calls, answers, last, stands⟩ := Scene.keeps.stands start requests
  exact ⟨calls, answers, last, stands, stands.makes.trail.constant fun _ _ => rfl⟩

end Tendril
