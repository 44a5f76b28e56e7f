import Tendril.Json.Printer
import Tendril.Json.Token
import Tendril.Proofs.Decimal.Numeral
import Tendril.Proofs.Json.Text

/-!
# Tokens of written values

The text of a value falls into the tokens that the value is made of. A literal or a numeral has no
end of its own and is over when something else begins, so a text that has been read up to some place
may still owe its last token; brackets, commas and colons settle that, and texts are put together
around them.
-/

namespace Tendril

namespace Json

/-- What holds of the literals, and of arrays and objects where it holds of what is in them, holds
of every value. -/
@[elab_as_elim] theorem inductionOn {motive : Json → Prop} (value : Json) (null : motive .null)
    (bool : ∀ b, motive (.bool b)) (number : ∀ n, motive (.number n))
    (string : ∀ s, motive (.string s))
    (array : ∀ items, (∀ item ∈ items, motive item) → motive (.array items))
    (object : ∀ members, (∀ m ∈ members, motive m.2) → motive (.object members)) :
    motive value :=
  match value with
  | .null => null
  | .bool b => bool b
  | .number n => number n
  | .string s => string s
  | .array items => array items fun item _ => inductionOn item null bool number string array object
  | .object members =>
      object members fun m _ => inductionOn m.2 null bool number string array object
termination_by sizeOf value
decreasing_by
  · have smaller := List.sizeOf_lt_of_mem ‹item ∈ items›
    simp only [Json.array.sizeOf_spec]
    omega
  · have smaller := List.sizeOf_lt_of_mem ‹m ∈ members›
    have inside : sizeOf m = 1 + sizeOf m.1 + sizeOf m.2 := Prod.mk.sizeOf_spec m.1 m.2
    simp only [Json.object.sizeOf_spec]
    omega

/-! ## What values are made of -/

/-- Pieces one behind the other, with a separator in front of all but the first. -/
def separated {τ : Type} (separator : τ) (first : Bool) : List (List τ) → List τ
  | [] => []
  | piece :: rest =>
      (if first then piece else separator :: piece) ++ separated separator false rest

/-- The tokens that a value is made of. -/
def pieces : Json → List Token
  | .null => [.literal .null]
  | .bool b => [.literal (.bool b)]
  | .number n => [.literal (.number n)]
  | .string s => [.text s]
  | .array items => .openArray :: separated .comma true (items.map pieces) ++ [.closeArray]
  | .object members =>
      .openObject :: separated .comma true (members.map fun m => .text m.1 :: .colon :: pieces m.2)
        ++ [.closeObject]
decreasing_by
  · have smaller := List.sizeOf_lt_of_mem ‹_ ∈ items›
    simp only [Json.array.sizeOf_spec]
    omega
  · have smaller := List.sizeOf_lt_of_mem ‹m ∈ members›
    have inside : sizeOf m = 1 + sizeOf m.1 + sizeOf m.2 := Prod.mk.sizeOf_spec m.1 m.2
    simp only [Json.object.sizeOf_spec]
    omega

/-- The tokens that a member of an object is made of. -/
def memberPieces (m : Option String × Json) : List Token := .text m.1 :: .colon :: m.2.pieces

theorem pieces_array (items : List Json) : (Json.array items).pieces =
    .openArray :: separated .comma true (items.map pieces) ++ [.closeArray] := by
  rw [pieces]

theorem pieces_object (members : List (Option String × Json)) : (Json.object members).pieces =
    .openObject :: separated .comma true (members.map memberPieces) ++ [.closeObject] := by
  rw [pieces]
  rfl

/-- The characters that a value is written in. -/
def spelling (value : Json) : List Char := value.write.toList

/-- The characters that a member of an object is written in. -/
def memberSpelling (m : Option String × Json) : List Char :=
  (quote m.1).toList ++ ':' :: m.2.spelling

/-- What is written behind a text does not depend on it. -/
def WritesOnto (value : Json) : Prop :=
  ∀ out, (writeOnto out value).toList = out.toList ++ value.spelling

theorem toList_writeItems {items : List Json} (onto : ∀ item ∈ items, item.WritesOnto)
    (out : String) (first : Bool) : (writeItems out first items).toList =
      out.toList ++ separated ',' first (items.map spelling) := by
  induction items generalizing out first with
  | nil => simp [writeItems, separated]
  | cons item items ih =>
      have rest := ih fun other member => onto other (List.mem_cons_of_mem item member)
      rw [writeItems, rest, onto item List.mem_cons_self]
      cases first <;> simp [separated]

theorem toList_writeMembers {members : List (Option String × Json)}
    (onto : ∀ m ∈ members, m.2.WritesOnto) (out : String) (first : Bool) :
    (writeMembers out first members).toList =
      out.toList ++ separated ',' first (members.map memberSpelling) := by
  induction members generalizing out first with
  | nil => simp [writeMembers, separated]
  | cons m members ih =>
      have rest := ih fun other member => onto other (List.mem_cons_of_mem m member)
      rw [writeMembers, rest, onto m List.mem_cons_self]
      cases first <;> simp [separated, memberSpelling]

theorem writesOnto (value : Json) : value.WritesOnto := by
  induction value using inductionOn with
  | null => exact fun out => by simp [writeOnto, spelling, write]
  | bool b => exact fun out => by simp [writeOnto, spelling, write]
  | number n => exact fun out => by simp [writeOnto, spelling, write]
  | string s => exact fun out => by simp [writeOnto, spelling, write]
  | array items ih =>
      intro out
      simp [writeOnto, spelling, write, toList_writeItems ih]
  | object members ih =>
      intro out
      simp [writeOnto, spelling, write, toList_writeMembers ih]

theorem spelling_array (items : List Json) : (Json.array items).spelling =
    '[' :: separated ',' true (items.map spelling) ++ [']'] := by
  simp [spelling, write, writeOnto, toList_writeItems fun item _ => writesOnto item]

theorem spelling_object (members : List (Option String × Json)) : (Json.object members).spelling =
    '\x7b' :: separated ',' true (members.map memberSpelling) ++ ['\x7d'] := by
  simp [spelling, write, writeOnto, toList_writeMembers fun m _ => writesOnto m.2]

/-! ## Reading what is written -/

/-- A place at which all of `done`, the latest first, has been read; the last token may still be a
bare one that is not over. -/
inductive Lexer.At : Lexer → List Token → Prop where
  | blank (done : List Token) : At ⟨.blank, done⟩ done
  | bare {taken : List Char} {value : Json} (done : List Token)
      (known : bareValue? taken.reverse = some value) :
      At ⟨.bare taken, done⟩ (.literal value :: done)

/-- A character that is no part of a literal settles what was read before it. -/
theorem Lexer.At.step {l : Lexer} {done : List Token} (here : l.At done) {c : Char}
    (other : isBare c = false) : l.step? c = begin? done c := by
  cases here with
  | blank => rfl
  | bare before known => simp [step?, other, known]

theorem Lexer.At.finish {l : Lexer} {done : List Token} (here : l.At done) :
    l.finish? = some done.reverse := by
  cases here with
  | blank => rfl
  | bare before known => simp [finish?, known]

/-- Characters that are read as some tokens, wherever nothing is owed. -/
def Spells (cs : List Char) (ts : List Token) : Prop :=
  ∀ done, ∃ l : Lexer, cs.foldlM Lexer.step? ⟨.blank, done⟩ = some l ∧ l.At (ts.reverse ++ done)

/-- Characters that stand for themselves, and for nothing else. -/
def IsMark (c : Char) (t : Token) : Prop :=
  ∀ done, isBare c = false ∧ Lexer.begin? done c = some ⟨.blank, t :: done⟩

theorem isMark : IsMark '[' .openArray ∧ IsMark ']' .closeArray ∧ IsMark '\x7b' .openObject ∧
    IsMark '\x7d' .closeObject ∧ IsMark ',' .comma ∧ IsMark ':' .colon :=
  ⟨fun _ => ⟨rfl, rfl⟩, fun _ => ⟨rfl, rfl⟩, fun _ => ⟨rfl, rfl⟩, fun _ => ⟨rfl, rfl⟩,
    fun _ => ⟨rfl, rfl⟩, fun _ => ⟨rfl, rfl⟩⟩

namespace Spells

theorem nil : Spells [] [] := fun done => ⟨_, rfl, .blank done⟩

/-- Two texts may stand to both sides of a mark. -/
theorem mark {cs cs' : List Char} {ts ts' : List Token} (front : Spells cs ts) {c : Char}
    {t : Token} (between : IsMark c t) (back : Spells cs' ts') :
    Spells (cs ++ c :: cs') (ts ++ t :: ts') := by
  intro done
  obtain ⟨l, read, here⟩ := front done
  obtain ⟨other, began⟩ := between (ts.reverse ++ done)
  obtain ⟨l', readBack, there⟩ := back (t :: (ts.reverse ++ done))
  refine ⟨l', ?_, by simpa using there⟩
  rw [List.foldlM_append, read]
  show (l.step? c).bind (cs'.foldlM Lexer.step?) = some l'
  rw [here.step other, began]
  exact readBack

theorem separated_later {cs : List Char} {ts : List Token} (front : Spells cs ts) {β : Type}
    {chars : β → List Char} {tokens : β → List Token} {items : List β}
    (each : ∀ item ∈ items, Spells (chars item) (tokens item)) :
    Spells (cs ++ separated ',' false (items.map chars))
      (ts ++ separated .comma false (items.map tokens)) := by
  induction items generalizing cs ts with
  | nil => simpa [separated] using front
  | cons item items ih =>
      have here := front.mark isMark.2.2.2.2.1 (each item List.mem_cons_self)
      have rest := ih here fun other member => each other (List.mem_cons_of_mem item member)
      simpa [separated] using rest

/-- Texts with commas between them are read as their tokens with commas between them. -/
theorem separated {β : Type} {chars : β → List Char} {tokens : β → List Token} {items : List β}
    (each : ∀ item ∈ items, Spells (chars item) (tokens item)) :
    Spells (Json.separated ',' true (items.map chars))
      (Json.separated .comma true (items.map tokens)) := by
  cases items with
  | nil => exact nil
  | cons item items =>
      have here := each item List.mem_cons_self
      exact here.separated_later fun other member => each other (List.mem_cons_of_mem item member)

/-- A text between two marks. -/
theorem enclosed {cs : List Char} {ts : List Token} (inside : Spells cs ts) {c c' : Char}
    {t t' : Token} (opening : IsMark c t) (closing : IsMark c' t') :
    Spells (c :: cs ++ [c']) (t :: ts ++ [t']) :=
  nil.mark opening (inside.mark closing nil)

theorem not_isBlank_of_isBare {c : Char} (bare : isBare c = true) :
    isBlank c = false ∧ c ≠ '"' := by
  refine ⟨?_, ?_⟩
  · rw [Bool.eq_false_iff]
    intro blank
    simp only [isBlank, Bool.or_eq_true, decide_eq_true_iff] at blank
    rcases blank with ((rfl | rfl) | rfl) | rfl <;> cases bare
  · rintro rfl
    cases bare

/-- A literal or a numeral is read to its end. -/
theorem bare {cs : List Char} {value : Json} (some : cs ≠ [])
    (all : cs.all isBare = true) (known : bareValue? cs = .some value) :
    Spells cs [.literal value] := by
  intro done
  have onward : ∀ (rest taken : List Char), (∀ c ∈ rest, isBare c = true) →
      rest.foldlM Lexer.step? ⟨.bare taken, done⟩ =
        .some ⟨.bare (rest.reverse ++ taken), done⟩ := by
    intro rest
    induction rest with
    | nil => exact fun _ _ => rfl
    | cons c rest ih =>
        intro taken bare
        have here : Lexer.step? ⟨.bare taken, done⟩ c = .some ⟨.bare (c :: taken), done⟩ := by
          simp [Lexer.step?, bare c List.mem_cons_self]
        rw [List.foldlM_cons, here]
        exact (ih (c :: taken) fun c' member => bare c' (List.mem_cons_of_mem c member)).trans
          (by simp)
  rw [List.all_eq_true] at all
  cases cs with
  | nil => exact absurd rfl some
  | cons c cs =>
      have began : Lexer.step? ⟨.blank, done⟩ c = .some ⟨.bare [c], done⟩ := by
        have here := all c List.mem_cons_self
        show Lexer.begin? done c = _
        rw [Lexer.begin?, (not_isBlank_of_isBare here).1, if_neg (not_isBlank_of_isBare here).2,
          here]
        rfl
      refine ⟨⟨.bare (cs.reverse ++ [c]), done⟩, ?_, .bare done (by simpa using known)⟩
      rw [List.foldlM_cons, began]
      exact onward cs [c] fun c' member => all c' (List.mem_cons_of_mem c member)

/-! ### Quoted text -/

/-- A character that stands for itself between quotes. -/
theorem step?_quoted {c : Char} (plain : c ≠ '"' ∧ c ≠ '\\' ∧ ¬ c.toNat < 32) (taken : List Char)
    (done : List Token) :
    Lexer.step? ⟨.quoted taken, done⟩ c = some ⟨.quoted (c :: taken), done⟩ := by
  simp [Lexer.step?, plain]

theorem hexDigit_plain {k : Nat} (digit : k < 16) :
    hexDigit k ≠ '"' ∧ hexDigit k ≠ '\\' ∧ ¬ (hexDigit k).toNat < 32 := by
  have all : ∀ k : Fin 16, hexDigit k ≠ '"' ∧ hexDigit k ≠ '\\' ∧ ¬ (hexDigit k).toNat < 32 := by
    decide
  exact all ⟨k, digit⟩

/-- What is written for a character neither ends the text nor breaks it off. -/
theorem foldlM_escapeChar (c : Char) (taken : List Char) (done : List Token) :
    (escapeChar c).foldlM Lexer.step? ⟨.quoted taken, done⟩ =
      some ⟨.quoted ((escapeChar c).reverse ++ taken), done⟩ := by
  rcases escapeChar_cases c with
    ⟨letter, _, written⟩ | ⟨control, written⟩ | ⟨end_, back, high, written⟩
  · rw [written]
    rfl
  · rw [written]
    show ([hexDigit (c.toNat / 16), hexDigit (c.toNat % 16)]).foldlM Lexer.step?
      ⟨.quoted ('0' :: '0' :: 'u' :: '\\' :: taken), done⟩ = _
    rw [List.foldlM_cons, step?_quoted (hexDigit_plain (by omega))]
    show ([hexDigit (c.toNat % 16)]).foldlM Lexer.step? _ = _
    rw [List.foldlM_cons, step?_quoted (hexDigit_plain (by omega))]
    rfl
  · rw [written, List.foldlM_cons, step?_quoted ⟨end_, back, high⟩]
    rfl

theorem foldlM_escape (cs taken : List Char) (done : List Token) :
    (escape cs).foldlM Lexer.step? ⟨.quoted taken, done⟩ =
      some ⟨.quoted ((escape cs).reverse ++ taken), done⟩ := by
  induction cs generalizing taken with
  | nil => rfl
  | cons c cs ih =>
      have rest := ih ((escapeChar c).reverse ++ taken)
      unfold escape at rest ⊢
      rw [List.flatMap_cons, List.foldlM_append, foldlM_escapeChar]
      exact rest.trans (by simp)

theorem quote (s : Option String) : Spells (Json.quote s).toList [.text s] := by
  intro done
  refine ⟨⟨.blank, .text s :: done⟩, ?_, .blank _⟩
  cases s with
  | none =>
      have written : (Json.quote none).toList = ['"', '\\', 'u', 'd', '8', '0', '0', '"'] := by
        decide
      rw [written]
      rfl
  | some s =>
      have written : (Json.quote (some s)).toList = '"' :: (escape s.toList ++ ['"']) := by
        simp [Json.quote]
      rw [written, List.foldlM_cons]
      show (escape s.toList ++ ['"']).foldlM Lexer.step? ⟨.quoted [], done⟩ = _
      rw [List.foldlM_append, foldlM_escape, List.append_nil]
      show (Lexer.step? ⟨.quoted (escape s.toList).reverse, done⟩ '"').bind _ = _
      have closed : Lexer.step? ⟨.quoted (escape s.toList).reverse, done⟩ '"' =
          some ⟨.blank, .text (some s) :: done⟩ := by
        simp [Lexer.step?, unescape?_escape]
      rw [closed]
      rfl

end Spells

/-! ### Values -/

theorem isBare_of_isDigit {c : Char} (digit : c.isDigit = true) : isBare c = true := by
  simp [isBare, Char.isAlphanum, digit]

theorem isBare_toDigits (n : Nat) : ∀ c ∈ Nat.toDigits 10 n, isBare c = true := fun _ member =>
  isBare_of_isDigit (Nat.isDigit_of_mem_toDigits (by decide) (by decide) member)

/-- The characters of a numeral are those of a bare token. -/
theorem isBare_text (plus : Bool) (n : Numeral) : ∀ c ∈ n.text plus, isBare c = true := by
  obtain ⟨negative, whole, fraction, exponent⟩ := n
  intro c member
  simp only [Numeral.text, List.mem_append] at member
  rcases member with ((sign | digit) | point) | power
  · cases negative with
    | true => rw [List.mem_singleton.mp sign]; rfl
    | false => cases sign
  · exact isBare_toDigits whole c digit
  · cases fraction with
    | nil => cases point
    | cons d ds =>
        rcases List.mem_cons.mp point with rfl | digit
        · rfl
        · obtain ⟨d', _, rfl⟩ := List.mem_map.mp digit
          exact isBare_of_isDigit (Numeral.isDigit_digitChar d')
  · cases exponent with
    | none => cases power
    | some e =>
        have among : c = 'e' ∨ c ∈ (if e < 0 then ['-'] else if plus then ['+'] else []) ∨
            c ∈ Nat.toDigits 10 e.natAbs := by
          simpa [Numeral.exponentText] using power
        rcases among with rfl | sign | digit
        · rfl
        · split at sign
          · rw [List.mem_singleton.mp sign]; rfl
          · split at sign
            · rw [List.mem_singleton.mp sign]; rfl
            · cases sign
        · exact isBare_toDigits _ c digit

/-- A numeral is not mistaken for a literal. -/
theorem bareValue?_text (plus : Bool) (n : Numeral) :
    bareValue? (n.text plus) = some (.number n) := by
  have read := Numeral.read?_text plus n
  have other : ∀ word, Numeral.read? word = none → n.text plus ≠ word := by
    rintro word unread rfl
    rw [unread] at read
    cases read
  rw [bareValue?, if_neg (other _ rfl), if_neg (other _ rfl), if_neg (other _ rfl), read,
    Option.map_some]

theorem text_ne_nil (plus : Bool) (n : Numeral) : n.text plus ≠ [] := by
  intro none
  have read := Numeral.read?_text plus n
  rw [none] at read
  cases read

/-- The text of a value is read as the tokens that the value is made of. -/
theorem spells (value : Json) : Spells value.spelling value.pieces := by
  induction value using inductionOn with
  | null =>
      have written : spelling .null = ['n', 'u', 'l', 'l'] := by decide
      rw [written, pieces]
      exact .bare (by decide) rfl rfl
  | bool b =>
      rw [pieces]
      cases b with
      | true =>
          have written : spelling (.bool true) = ['t', 'r', 'u', 'e'] := by decide
          rw [written]
          exact .bare (by decide) rfl rfl
      | false =>
          have written : spelling (.bool false) = ['f', 'a', 'l', 's', 'e'] := by decide
          rw [written]
          exact .bare (by decide) rfl rfl
  | number n =>
      have written : spelling (.number n) = n.text true := by simp [spelling, write, writeOnto]
      rw [written, pieces]
      exact .bare (text_ne_nil true n) (List.all_eq_true.mpr (isBare_text true n))
        (bareValue?_text true n)
  | string s =>
      have written : spelling (.string s) = (quote s).toList := by simp [spelling, write, writeOnto]
      rw [written, pieces]
      exact .quote s
  | array items ih =>
      rw [spelling_array, pieces_array]
      exact (Spells.separated ih).enclosed isMark.1 isMark.2.1
  | object members ih =>
      rw [spelling_object, pieces_object]
      have each : ∀ m ∈ members, Spells (memberSpelling m) (memberPieces m) := fun m member =>
        (Spells.quote m.1).mark isMark.2.2.2.2.2 (ih m member)
      exact (Spells.separated each).enclosed isMark.2.2.1 isMark.2.2.2.1

/-- Writing a value and taking its text apart gives the tokens of the value. -/
theorem tokens?_write (value : Json) : tokens? value.write.toList = some value.pieces := by
  obtain ⟨l, read, here⟩ := spells value []
  show (value.spelling.foldlM Lexer.step? ⟨.blank, []⟩).bind Lexer.finish? = some value.pieces
  rw [read, Option.bind_some, here.finish, List.append_nil, List.reverse_reverse]

end Json

end Tendril
