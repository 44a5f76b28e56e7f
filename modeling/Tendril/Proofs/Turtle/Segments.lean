import Tendril.Proofs.Turtle.Effect
import Tendril.Proofs.Turtle.Tube

/-!
# What a word draws

A word that gets through draws one segment for each step ahead, and every segment is a tube in the
style of the turtle. Where the tubes lie is a matter of the frame; how many there are, and of what
points, edges and quads, is not.
-/

namespace Tendril

variable {α : Type} [Scalar α]

/-- A mesh that is drawn for a step ahead in some style. -/
def TubeStyle.Draws (style : TubeStyle α) (m : Mesh α) : Prop :=
  ∃ start finish normal binormal, tube start finish normal binormal style = .ok m

theorem TubeStyle.Draws.counts {style : TubeStyle α} {m : Mesh α} (drawn : style.Draws m) :
    m.vertexCount = 2 * style.resolution.toNat ∧ m.edgeCount = 3 * style.resolution.toNat ∧
      m.quadCount = style.resolution.toNat := by
  obtain ⟨_, _, _, _, tubular⟩ := drawn
  exact tube_counts tubular

/-- A tube is valid if its points can be numbered. -/
theorem TubeStyle.Draws.isValid {style : TubeStyle α} {m : Mesh α} (drawn : style.Draws m)
    (few : m.vertexCount < 2 ^ 32) : m.isValid = true := by
  rw [drawn.counts.1] at few
  obtain ⟨_, _, _, _, tubular⟩ := drawn
  exact isValid_tube tubular few

/-- Only a step ahead draws, and what it draws is a tube in the style of the turtle. -/
theorem Turtle.Effect.draws {t next : Turtle α} {command : Command} {segment : Option (Mesh α)}
    (effect : t.Effect command segment next) :
    (command = .forward ∧ ∃ m, segment = some m ∧ t.style.Draws m) ∨
      (command ≠ .forward ∧ segment = none) := by
  cases effect with
  | push => exact .inr ⟨by simp, rfl⟩
  | pop top => exact .inr ⟨by simp, rfl⟩
  | turn turned => exact .inr ⟨by simp, rfl⟩
  | forward drawn => exact .inl ⟨rfl, _, rfl, _, _, _, _, drawn⟩

/-- A drawing of so many segments, all of them tubes in the style of its turtle. -/
structure Tubular (style : TubeStyle α) (count : Nat) (d : Drawing α) : Prop where
  styled : d.turtle.style = style
  size : d.segments.size = count
  tubes : ∀ m ∈ d.segments.toList, style.Draws m

namespace Tubular

variable {style : TubeStyle α} {count : Nat} {d : Drawing α}

/-- A step ahead adds a tube, and no other symbol adds anything. -/
theorem step (tubular : Tubular style count d) {symbol : Char}
    (going : (d.step symbol).failure = none) :
    Tubular style (count + [symbol].count 'F') (d.step symbol) := by
  have stepped := d.step_spec symbol
  generalize d.step symbol = next at stepped going ⊢
  have ahead : ∀ command, Command.ofSymbol? symbol = command →
      [symbol].count 'F' = if command = some .forward then 1 else 0 := by
    intro command known
    simp [← known, Command.ofSymbol?_eq_some_iff, Command.symbol, List.count_singleton]
  cases stepped with
  | halted failed =>
      rw [failed] at going
      cases going
  | ignored _ unknown =>
      rw [ahead _ unknown, if_neg (by simp), Nat.add_zero]
      exact tubular
  | done _ known effect =>
      have styled := effect.settings.2.2.trans tubular.styled
      rw [ahead _ known]
      rcases effect.draws with ⟨rfl, m, rfl, drawn⟩ | ⟨silent, rfl⟩
      · refine ⟨styled, by simp [tubular.size], fun other member => ?_⟩
        have among : other ∈ d.segments ∨ other = m := by simpa using member
        rw [tubular.styled] at drawn
        rcases among with before | rfl
        · exact tubular.tubes other (Array.mem_toList_iff.mpr before)
        · exact drawn
      · rw [if_neg (by simp [silent])]
        exact ⟨styled, by simp [tubular.size], by simpa using tubular.tubes⟩
  | stopped _ _ _ => cases going

/-- A word that gets through adds as many tubes as it goes steps ahead. -/
theorem after (tubular : Tubular style count d) {w : Word} (through : (d.after w).failure = none) :
    Tubular style (count + w.count 'F') (d.after w) := by
  induction w generalizing d count with
  | nil => exact tubular
  | cons symbol w ih =>
      have later := ih (tubular.step (Drawing.going_step through)) through
      rw [Nat.add_assoc, ← List.count_append] at later
      exact later

end Tubular

/-- A turtle that gets through a word draws a tube for each step ahead and nothing else. -/
theorem Turtle.draw_segments {t : Turtle α} {w : Word} {segments : List (Mesh α)}
    (drawn : (t.draw w).result = .ok segments) :
    segments.length = w.count 'F' ∧ ∀ m ∈ segments, t.style.Draws m := by
  obtain ⟨through, rfl⟩ := Drawing.result_eq_ok_iff.mp drawn
  have start : Tubular t.style 0 (Drawing.start t) := ⟨rfl, rfl, by simp [Drawing.start]⟩
  have tubular := start.after through
  rw [Nat.zero_add] at tubular
  exact ⟨tubular.size, tubular.tubes⟩

end Tendril
