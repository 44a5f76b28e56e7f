import Tendril.Proofs.Host.Scene

/-!
# What a sink is asked for

A sink may be anything that has a state, so what it is asked for cannot be read off the state that
it is left in. `logged` puts a log of calls beside the state of a sink; the answers are those of the
sink on its own, so a run cannot tell the two apart. `Makes` says what a run comes to for a sink:
the calls that its log shows, each of which finds the state that the one before it left.
-/

namespace Tendril

variable {α σ η β γ : Type}

namespace Sink

/-- A call of a sink: the state that it finds, the mesh that is handed over, and the answer. -/
structure Call (α σ η : Type) where
  found : σ
  mesh : Mesh α
  answer : Except (Failure α) η

/-- A sink with a log of its calls beside its state. -/
def logged (sink : Sink α σ η) : Sink α (σ × List (Call α σ η)) η where
  create m s :=
    let (answer, next) := sink.create m s.1
    (answer, next, s.2 ++ [⟨s.1, m, answer⟩])

/-- Calls that follow one another: each finds the state that the one before it left. -/
inductive Trail (sink : Sink α σ η) : σ → List (Call α σ η) → σ → Prop
  | done (s : σ) : Trail sink s [] s
  | call {s next last : σ} {m : Mesh α} {answer : Except (Failure α) η} {calls : List (Call α σ η)}
      (created : sink.create m s = (answer, next)) (later : Trail sink next calls last) :
      Trail sink s (⟨s, m, answer⟩ :: calls) last

theorem Trail.append {sink : Sink α σ η} {s mid last : σ} {front behind : List (Call α σ η)}
    (first : sink.Trail s front mid) (second : sink.Trail mid behind last) :
    sink.Trail s (front ++ behind) last := by
  induction first with
  | done s => exact second
  | call created _ ih => exact .call created (ih second)

/-- Something that hands meshes to whatever sink it is given, and answers something itself. -/
abbrev Run (α η β : Type) : Type 1 := (τ : Type) → Sink α τ η → τ → β × τ

/-- What a run comes to for a sink in some state. A sink with a log is one more sink, and the run
does not know which of the two it is given. -/
structure Makes (sink : Sink α σ η) (run : Run α η β) (s : σ) (calls : List (Call α σ η))
    (answer : β) (last : σ) : Prop where
  plain : run σ sink s = (answer, last)
  logged : ∀ log, run _ sink.logged (s, log) = (answer, last, log ++ calls)
  trail : sink.Trail s calls last

namespace Makes

variable {sink : Sink α σ η} {s : σ}

/-- A run that asks for nothing. -/
theorem idle (answer : β) : sink.Makes (fun _ _ t => (answer, t)) s [] answer s where
  plain := rfl
  logged log := by rw [List.append_nil]
  trail := .done s

/-- A single call. -/
theorem create {m : Mesh α} {answer : Except (Failure α) η} {next : σ}
    (created : sink.create m s = (answer, next)) :
    sink.Makes (fun _ k => k.create m) s [⟨s, m, answer⟩] answer next where
  plain := created
  logged log := by simp only [Sink.logged, created]
  trail := .call created (.done next)

variable {first : Run α η β} {front behind : List (Call α σ η)} {b : β}
  {c : γ} {mid last : σ}

/-- A run goes on with what another has answered. -/
theorem andThen (second : β → Run α η γ) (begun : sink.Makes first s front b mid)
    (followed : sink.Makes (second b) mid behind c last) :
    sink.Makes (fun τ k t => second (first τ k t).1 τ k (first τ k t).2) s (front ++ behind) c
      last where
  plain := by simp only [begun.plain, followed.plain]
  logged log := by simp only [begun.logged, followed.logged, List.append_assoc]
  trail := begun.trail.append followed.trail

/-- A run that makes something else of its answer. -/
theorem map (made : sink.Makes first s front b last) (f : β → γ) :
    sink.Makes (fun τ k t => (f (first τ k t).1, (first τ k t).2)) s front (f b) last where
  plain := by simp only [made.plain]
  logged log := by simp only [made.logged]
  trail := made.trail

end Makes

/-! ## Several meshes -/

/-- Meshes that are handed over in turn, until all are taken or one is refused. -/
inductive InTurn (meshes : List (Mesh α)) (calls : List (Call α σ η)) :
    Except (Failure α) (List η) → Prop
  | taken {handles : List η} (handed : calls.map Call.mesh = meshes)
      (answers : calls.map Call.answer = handles.map .ok) : InTurn meshes calls (.ok handles)
  | refused {front rest : List (Mesh α)} {m : Mesh α} {handles : List η} {failure : Failure α}
      (parts : meshes = front ++ m :: rest) (handed : calls.map Call.mesh = front ++ [m])
      (answers : calls.map Call.answer = handles.map .ok ++ [.error failure]) :
      InTurn meshes calls (.error failure)

/-- One more mesh in front, which is taken. -/
theorem InTurn.cons {meshes : List (Mesh α)} {calls : List (Call α σ η)}
    {answer : Except (Failure α) (List η)} (inTurn : InTurn meshes calls answer) (s : σ)
    (m : Mesh α) (handle : η) :
    InTurn (m :: meshes) (⟨s, m, .ok handle⟩ :: calls) (answer.map (handle :: ·)) := by
  cases inTurn with
  | @taken handles handed answers =>
      show InTurn _ _ (.ok (handle :: handles))
      refine .taken ?_ ?_
      · rw [List.map_cons, handed]
      · rw [List.map_cons, answers, List.map_cons]
  | @refused front rest other handles failure parts handed answers =>
      have begins : m :: meshes = (m :: front) ++ other :: rest := by
        rw [parts, List.cons_append]
      have before : (m :: calls.map Call.mesh) = (m :: front) ++ [other] := by
        rw [handed, List.cons_append]
      have told : (.ok handle :: calls.map Call.answer) =
          (handle :: handles).map .ok ++ [.error failure] := by
        rw [answers, List.map_cons, List.cons_append]
      exact .refused begins before told

/-- What is done about the other meshes when the first has been handed over. -/
def proceed (rest : List (Mesh α)) : Except (Failure α) η → Run α η (Except (Failure α) (List η))
  | .error failure => fun _ _ t => (.error failure, t)
  | .ok handle => fun _ k t =>
      ((k.createAll rest t).1.map (handle :: ·), (k.createAll rest t).2)

theorem createAll_cons (m : Mesh α) (rest : List (Mesh α)) :
    (fun _ k => k.createAll (m :: rest) : Run α η (Except (Failure α) (List η))) =
      fun τ k t => proceed rest (k.create m t).1 τ k (k.create m t).2 := by
  funext τ k t
  rw [createAll]
  rcases k.create m t with ⟨failure | handle, next⟩ <;> rfl

theorem createAll_singleton (m : Mesh α) :
    (fun _ k => k.createAll [m] : Run α η (Except (Failure α) (List η))) =
      fun _ k t => ((k.create m t).1.map fun handle => [handle], (k.create m t).2) := by
  rw [createAll_cons]
  funext τ k t
  rcases k.create m t with ⟨failure | handle, next⟩ <;> rfl

theorem createAll_makes (sink : Sink α σ η) (meshes : List (Mesh α)) (s : σ) :
    ∃ calls answer last, sink.Makes (fun _ k => k.createAll meshes) s calls answer last ∧
      InTurn meshes calls answer := by
  induction meshes generalizing s with
  | nil => exact ⟨[], .ok [], s, .idle _, .taken rfl rfl⟩
  | cons m rest ih =>
      rw [createAll_cons]
      cases created : sink.create m s with
      | mk answer next =>
          have begun := Makes.create created
          cases answer with
          | error failure =>
              have told : [(.error failure : Except (Failure α) η)] =
                  [].map .ok ++ [.error failure] := rfl
              have refused : InTurn (m :: rest) [⟨s, m, .error failure⟩] (.error failure) :=
                .refused (List.nil_append _).symm (List.nil_append _).symm told
              exact ⟨_, _, _, begun.andThen (proceed rest) (.idle _), refused⟩
          | ok handle =>
              obtain ⟨calls, answer, last, made, inTurn⟩ := ih next
              exact ⟨_, _, _, begun.andThen (proceed rest) (made.map _),
                inTurn.cons s m handle⟩

/-- There is a refused call behind every failure of meshes that are handed over in turn. -/
theorem InTurn.refused_mem {meshes : List (Mesh α)} {calls : List (Call α σ η)}
    {failure : Failure α} (inTurn : InTurn meshes calls (.error failure)) :
    ∃ call ∈ calls, call.answer = .error failure := by
  cases inTurn with
  | refused _ _ answers =>
      refine List.mem_map.mp ?_
      rw [answers]
      exact List.mem_append_right _ List.mem_cons_self

/-! ## Calls that change nothing, and calls that are all taken -/

variable {sink : Sink α σ η} {s last : σ} {calls : List (Call α σ η)}

/-- A run that asks for nothing leaves a sink as it was. -/
theorem Makes.restores {run : Run α η β} {answer : β} (made : sink.Makes run s [] answer last) :
    run σ sink s = (answer, s) := by
  cases made.trail
  exact made.plain

theorem Trail.accepted (trail : sink.Trail s calls last) (accepts : sink.Accepts) :
    ∀ call ∈ calls, ∃ handle, call.answer = .ok handle := by
  induction trail with
  | done s => exact fun _ member => absurd member List.not_mem_nil
  | @call s _ _ m _ _ created _ ih =>
      have taken := accepts m s
      rw [created] at taken
      exact List.forall_mem_cons.mpr ⟨failure?_eq_none_iff.mp taken, ih⟩

/-- What no call changes is the same at the end. -/
theorem Trail.constant (trail : sink.Trail s calls last) {f : σ → β}
    (fixed : ∀ m s, f (sink.create m s).2 = f s) : f last = f s := by
  induction trail with
  | done s => rfl
  | @call s _ _ m _ _ created _ ih =>
      have same := fixed m s
      rw [created] at same
      exact ih.trans same

end Sink

end Tendril
