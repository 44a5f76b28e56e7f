import Tendril.Json.Parser
import Tendril.Proofs.Json.Token

/-!
# Written values read back

The tokens of a value put it where a value is wanted, at any depth: what is open around it stays as
it was. So every value is read back from its text, whatever it holds and however deep it is nested.
-/

namespace Tendril

namespace Json

/-- The place that tokens lead to. -/
def Parser.after? (p : Parser) (ts : List Token) : Option Parser := ts.foldlM step? p

theorem Parser.after?_cons {p next : Parser} {t : Token} (ts : List Token)
    (stepped : p.step? t = some next) : p.after? (t :: ts) = next.after? ts := by
  rw [after?, List.foldlM_cons, stepped]
  rfl

theorem Parser.after?_append {p next : Parser} {ts : List Token} (ts' : List Token)
    (led : p.after? ts = some next) : p.after? (ts ++ ts') = next.after? ts' := by
  rw [after?] at led
  rw [after?, List.foldlM_append, led]
  rfl

theorem Parser.after?_singleton (p : Parser) (t : Token) : p.after? [t] = p.step? t := by
  rw [after?, List.foldlM_cons]
  exact Option.bind_fun_some _

/-- The tokens of a value start with one that closes nothing. -/
theorem pieces_eq_cons (value : Json) :
    ∃ t ts, value.pieces = t :: ts ∧ t ≠ .closeArray := by
  cases value with
  | null => exact ⟨_, _, by rw [pieces], by simp⟩
  | bool b => exact ⟨_, _, by rw [pieces], by simp⟩
  | number n => exact ⟨_, _, by rw [pieces], by simp⟩
  | string s => exact ⟨_, _, by rw [pieces], by simp⟩
  | array items => exact ⟨_, _, pieces_array items, by simp⟩
  | object members => exact ⟨_, _, pieces_object members, by simp⟩

/-- The tokens of a value put it in its place. -/
def Placed (value : Json) : Prop := ∀ pending,
  (Parser.reading pending .value).after? value.pieces = Parser.place? value pending

/-- The first item of an array is read like any other value. -/
theorem Placed.first {value : Json} (placed : value.Placed) (pending : List Pending) :
    (Parser.reading (.array [] :: pending) .first).after? value.pieces =
      some (.reading (.array [value] :: pending) .next) := by
  obtain ⟨t, ts, starts, opens⟩ := pieces_eq_cons value
  have same : Parser.step? (.reading (.array [] :: pending) .first) t =
      Parser.step? (.reading (.array [] :: pending) .value) t := by
    cases t with
    | closeArray => exact absurd rfl opens
    | _ => rfl
  have here := placed (.array [] :: pending)
  rw [starts, Parser.after?, List.foldlM_cons] at here ⊢
  rw [same]
  exact here

theorem after?_items {items : List Json} (placed : ∀ item ∈ items, item.Placed)
    (done : List Json) (pending : List Pending) :
    (Parser.reading (.array done :: pending) .next).after?
        (separated .comma false (items.map pieces)) =
      some (.reading (.array (items.reverse ++ done) :: pending) .next) := by
  induction items generalizing done with
  | nil => rfl
  | cons item items ih =>
      have here : (Parser.reading (.array done :: pending) .value).after? item.pieces =
          some (.reading (.array (item :: done) :: pending) .next) :=
        placed item List.mem_cons_self _
      have rest := ih (fun other member => placed other (List.mem_cons_of_mem item member))
        (item :: done)
      rw [List.map_cons, separated, if_neg Bool.false_ne_true, List.cons_append,
        Parser.after?_cons _ rfl, Parser.after?_append _ here, rest, List.reverse_cons,
        List.append_assoc, List.singleton_append]

/-- The tokens of a member, where its key may stand. -/
theorem after?_member {m : Option String × Json} (placed : m.2.Placed) {want : Want}
    (wanted : want = .first ∨ want = .key) (done : List (Option String × Json))
    (pending : List Pending) :
    (Parser.reading (.object done :: pending) want).after? (memberPieces m) =
      some (.reading (.object (m :: done) :: pending) .next) := by
  have here := placed (.member done m.1 :: pending)
  rcases wanted with rfl | rfl <;> exact here

theorem after?_members {members : List (Option String × Json)}
    (placed : ∀ m ∈ members, m.2.Placed) (done : List (Option String × Json))
    (pending : List Pending) :
    (Parser.reading (.object done :: pending) .next).after?
        (separated .comma false (members.map memberPieces)) =
      some (.reading (.object (members.reverse ++ done) :: pending) .next) := by
  induction members generalizing done with
  | nil => rfl
  | cons m members ih =>
      have here := after?_member (placed m List.mem_cons_self) (.inr rfl) done pending
      have rest := ih (fun other member => placed other (List.mem_cons_of_mem m member))
        (m :: done)
      rw [List.map_cons, separated, if_neg Bool.false_ne_true, List.cons_append,
        Parser.after?_cons _ rfl, Parser.after?_append _ here, rest, List.reverse_cons,
        List.append_assoc, List.singleton_append]

theorem placed (value : Json) : value.Placed := by
  induction value using inductionOn with
  | null =>
      intro pending
      rw [pieces, Parser.after?_singleton]
      rfl
  | bool b =>
      intro pending
      rw [pieces, Parser.after?_singleton]
      rfl
  | number n =>
      intro pending
      rw [pieces, Parser.after?_singleton]
      rfl
  | string s =>
      intro pending
      rw [pieces, Parser.after?_singleton]
      rfl
  | array items ih =>
      intro pending
      rw [pieces_array, List.cons_append, Parser.after?_cons _ rfl]
      cases items with
      | nil => exact Parser.after?_singleton _ _
      | cons item items =>
          have here := (ih item List.mem_cons_self).first pending
          have rest := after?_items
            (fun other member => ih other (List.mem_cons_of_mem item member)) [item] pending
          rw [List.map_cons, separated, if_pos rfl, List.append_assoc, Parser.after?_append _ here,
            Parser.after?_append _ rest, Parser.after?_singleton]
          show Parser.place? (.array (items.reverse ++ [item]).reverse) pending = _
          rw [List.reverse_append, List.reverse_reverse]
          rfl
  | object members ih =>
      intro pending
      rw [pieces_object, List.cons_append, Parser.after?_cons _ rfl]
      cases members with
      | nil => exact Parser.after?_singleton _ _
      | cons m members =>
          have here := after?_member (ih m List.mem_cons_self) (.inl rfl) [] pending
          have rest := after?_members (fun other member => ih other (List.mem_cons_of_mem m member))
            [m] pending
          rw [List.map_cons, separated, if_pos rfl, List.append_assoc, Parser.after?_append _ here,
            Parser.after?_append _ rest, Parser.after?_singleton]
          show Parser.place? (.object (members.reverse ++ [m]).reverse) pending = _
          rw [List.reverse_append, List.reverse_reverse]
          rfl

/-- Every value is what its text spells. -/
theorem read?_write (value : Json) : read? value.write = some value := by
  rw [read?, tokens?_write, Option.bind_some]
  show ((Parser.reading [] .value).after? value.pieces).bind Parser.finish? = some value
  rw [placed value]
  rfl

/-- What a reader of values makes of a text. -/
def decode? {β : Type} (ofJson? : Json → Option β) (text : String) : Option β :=
  (read? text).bind ofJson?

theorem decode?_write {β : Type} (ofJson? : Json → Option β) (value : Json) :
    decode? ofJson? value.write = ofJson? value := by
  rw [decode?, read?_write, Option.bind_some]

end Json

end Tendril
