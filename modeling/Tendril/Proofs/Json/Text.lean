import Tendril.Json.Text

/-!
# Quoted text read back

Any text survives being put between quotes: what is written for a character is read as that
character, be it a quote, a control character or one beyond the basic plane, and none of it is taken
for a unit of a pair.
-/

namespace Tendril

namespace Json

theorem hexValue?_hexDigit {k : Nat} (digit : k < 16) : hexValue? (hexDigit k) = some k := by
  have all : ∀ k : Fin 16, hexValue? (hexDigit k) = some k.val := by decide
  exact all ⟨k, digit⟩

/-- The three ways in which a character is written between quotes. -/
theorem escapeChar_cases (c : Char) :
    (∃ letter, (c, letter) ∈ letters ∧ escapeChar c = ['\\', letter]) ∨
      (c.toNat < 32 ∧
        escapeChar c = ['\\', 'u', '0', '0', hexDigit (c.toNat / 16), hexDigit (c.toNat % 16)]) ∨
      (c ≠ '"' ∧ c ≠ '\\' ∧ ¬ c.toNat < 32 ∧ escapeChar c = [c]) := by
  unfold escapeChar
  split
  case h_1 key letter found =>
    have same : key = c := by simpa using List.find?_some found
    exact .inl ⟨letter, same ▸ List.mem_of_find?_eq_some found, rfl⟩
  case h_2 absent =>
    have other : ∀ pair ∈ letters, pair.1 ≠ c := by simpa using absent
    by_cases control : c.toNat < 32
    · exact .inr (.inl ⟨control, if_pos control⟩)
    · refine .inr (.inr ⟨?_, ?_, control, if_neg control⟩)
      · rintro rfl
        exact other ('"', '"') (by decide) rfl
      · rintro rfl
        exact other ('\\', '\\') (by decide) rfl

/-- What is written for a character is read as its number. -/
theorem units?_escapeChar (done : List Nat) (c : Char) (rest : List Char) :
    units? done (escapeChar c ++ rest) = units? (c.toNat :: done) rest := by
  rcases escapeChar_cases c with ⟨letter, paired, written⟩ | ⟨control, written⟩ |
    ⟨_, plain, _, written⟩
  · rw [written]
    simp only [letters, List.mem_cons, Prod.mk.injEq, List.not_mem_nil, or_false] at paired
    rcases paired with ⟨rfl, rfl⟩ | ⟨rfl, rfl⟩ | ⟨rfl, rfl⟩ | ⟨rfl, rfl⟩ | ⟨rfl, rfl⟩ | ⟨rfl, rfl⟩ |
      ⟨rfl, rfl⟩ <;> rfl
  · have unit : unit? '0' '0' (hexDigit (c.toNat / 16)) (hexDigit (c.toNat % 16)) =
        some c.toNat := by
      have zero : hexValue? '0' = some 0 := rfl
      rw [unit?, zero, hexValue?_hexDigit (by omega), hexValue?_hexDigit (by omega)]
      show some (4096 * 0 + 256 * 0 + 16 * (c.toNat / 16) + c.toNat % 16) = some c.toNat
      congr 1
      omega
    rw [written]
    simp only [List.cons_append, List.nil_append, units?, unit]
  · rw [written, List.singleton_append, units?.eq_3 _ _ _ (by simp [plain]) (by simp [plain]),
      if_neg plain]

theorem units?_escape (done : List Nat) (cs : List Char) :
    units? done (escape cs) = some (done.reverse ++ cs.map Char.toNat) := by
  induction cs generalizing done with
  | nil => simp [escape, units?]
  | cons c cs ih =>
      rw [escape, List.flatMap_cons, units?_escapeChar]
      exact (ih (c.toNat :: done)).trans (by simp)

/-- No character is a unit of a pair. -/
theorem unpaired (c : Char) : isLeading c.toNat = false ∧ isTrailing c.toNat = false := by
  have valid : c.toNat < 0xD800 ∨ (0xDFFF < c.toNat ∧ c.toNat < 0x110000) := c.valid
  simp only [isLeading, isTrailing, Bool.and_eq_false_iff, decide_eq_false_iff_not]
  omega

theorem characters?_map_toNat (done cs : List Char) :
    characters? done (cs.map Char.toNat) = some (done.reverse ++ cs) := by
  induction cs generalizing done with
  | nil => simp [characters?]
  | cons c cs ih =>
      have here : characters? done (c.toNat :: cs.map Char.toNat) =
          characters? (c :: done) (cs.map Char.toNat) := by
        rw [characters?.eq_def]
        simp [unpaired c]
      rw [List.map_cons, here, ih]
      simp

/-- Any text is what stands between its quotes. -/
theorem unescape?_escape (cs : List Char) :
    unescape? (escape cs) = some (some (String.ofList cs)) := by
  rw [unescape?, units?_escape, Option.map_some, List.reverse_nil, List.nil_append,
    characters?_map_toNat]
  rfl

end Json

end Tendril
