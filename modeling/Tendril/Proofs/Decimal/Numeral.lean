import Mathlib.Data.List.Basic
import Tendril.Decimal.Numeral

/-!
# Numerals read back

Whatever numeral is written, its text is read as that numeral and no other: the digits of a number
say the number, no run of digits swallows what follows it, and each of the three parts of a numeral
ends where the next begins.
-/

namespace Tendril

namespace Numeral

/-! ## Digits -/

@[simp] theorem digit?_digitChar (d : Fin 10) : digit? (digitChar d) = some d := by
  decide +revert

@[simp] theorem isDigit_digitChar (d : Fin 10) : (digitChar d).isDigit = true := by
  decide +revert

theorem digitChar_ne_sign (d : Fin 10) : digitChar d ≠ '+' ∧ digitChar d ≠ '-' := by
  decide +revert

theorem digitChar_of_digit? {c : Char} {d : Fin 10} (read : digit? c = some d) :
    digitChar d = c := by
  unfold digit? at read
  split at read
  case isTrue digit =>
    cases read
    have least : 48 ≤ c.toNat := by
      have := digit.1
      simp only [Char.isDigit, Bool.and_eq_true, decide_eq_true_iff] at this
      exact this.1
    rw [digitChar, show 48 + (c.toNat - 48) = c.toNat by omega, Char.ofNat_toNat]
  case isFalse => cases read

/-- The digits of a count, highest first. -/
def digitsOf (n : Nat) : List (Fin 10) := (Nat.toDigits 10 n).filterMap digit?

theorem digit?_of_isDigit {c : Char} (digit : c.isDigit = true) : ∃ d, digit? c = some d := by
  have bounds : 48 ≤ c.toNat ∧ c.toNat ≤ 57 := by
    simp only [Char.isDigit, Bool.and_eq_true, decide_eq_true_iff] at digit
    exact digit
  unfold digit?
  rw [dif_pos ⟨digit, by omega⟩]
  exact ⟨_, rfl⟩

theorem map_digitsOf (n : Nat) : (digitsOf n).map digitChar = Nat.toDigits 10 n := by
  have digits : ∀ c ∈ Nat.toDigits 10 n, c.isDigit = true := fun c member =>
    Nat.isDigit_of_mem_toDigits (by decide) (by decide) member
  unfold digitsOf
  generalize Nat.toDigits 10 n = cs at digits
  induction cs with
  | nil => rfl
  | cons c cs ih =>
      obtain ⟨d, read⟩ := digit?_of_isDigit (digits c List.mem_cons_self)
      rw [List.filterMap_cons_some read, List.map_cons, digitChar_of_digit? read,
        ih fun c' member => digits c' (List.mem_cons_of_mem c member)]

theorem digitsOf_ne_nil (n : Nat) : digitsOf n ≠ [] := by
  intro none
  have written := map_digitsOf n
  rw [none] at written
  exact Nat.toDigits_ne_nil written.symm

/-- The number that digits say is the one that core reads off their characters. -/
theorem ofDigits_eq (ds : List (Fin 10)) :
    ofDigits ds = Nat.ofDigitChars 10 (ds.map digitChar) 0 := by
  have code : ∀ d : Fin 10, (digitChar d).toNat - '0'.toNat = d.val := by decide
  rw [Nat.ofDigitChars_eq_foldl, List.foldl_map]
  simp only [code]
  rfl

@[simp] theorem ofDigits_digitsOf (n : Nat) : ofDigits (digitsOf n) = n := by
  rw [ofDigits_eq, map_digitsOf, Nat.ofDigitChars_ten_toDigits]

/-- Only the digits of zero start with a zero. -/
theorem head?_digitsOf {n : Nat} (idle : (digitsOf n).head? = some 0) :
    (digitsOf n).length = 1 := by
  have written : (Nat.toDigits 10 n).head? = some '0' := by
    rw [← map_digitsOf, List.head?_map, idle]
    rfl
  have length : (Nat.toDigits 10 n).length = (digitsOf n).length := by
    rw [← map_digitsOf, List.length_map]
  rw [← length]
  clear idle length
  induction n using Nat.strongRecOn with
  | ind n ih =>
      rw [Nat.toDigits_eq_if (by decide)] at written ⊢
      split
      case isTrue => rfl
      case isFalse large =>
        -- The digits in front of the last are those of a smaller number, which is not zero.
        rw [if_neg large, List.head?_append_of_ne_nil _ Nat.toDigits_ne_nil] at written
        have single := ih (n / 10) (by omega) written
        have zero : n / 10 < 10 :=
          (Nat.length_toDigits_le_iff (k := 1) (by decide) (by decide)).mp (Nat.le_of_eq single)
        rw [Nat.toDigits_of_lt_base zero, List.head?_cons, Option.some.injEq,
          Nat.digitChar_eq_zero] at written
        omega

/-! ## Parts -/

/-- What follows a run of digits and is none of it. -/
def Ends (rest : List Char) : Prop := ∀ c, rest.head? = some c → c.isDigit = false

theorem ends_nil : Ends [] := by simp [Ends]

theorem ends_cons {c : Char} {rest : List Char} (other : c.isDigit = false) :
    Ends (c :: rest) := by simp [Ends, other]

/-- Digits are read up to the first character that is none. -/
theorem digits?_append {ds : List (Fin 10)} (some : ds ≠ []) {rest : List Char}
    (ends : Ends rest) : digits? (ds.map digitChar ++ rest) = .some (ds, rest) := by
  have all : ∀ c ∈ ds.map digitChar, c.isDigit = true := by simp
  have kept : (ds.map digitChar).filterMap digit? = ds := by
    rw [List.filterMap_map]
    simp
  have stop : rest.takeWhile Char.isDigit = [] ∧ rest.dropWhile Char.isDigit = rest := by
    cases rest with
    | nil => exact ⟨rfl, rfl⟩
    | cons c rest => simp [ends c rfl]
  unfold digits?
  rw [List.takeWhile_append_of_pos all, List.dropWhile_append_of_pos all, stop.1, stop.2,
    List.append_nil, kept]
  cases ds with
  | nil => exact absurd rfl some
  | cons d ds => rfl

theorem digits?_toDigits (n : Nat) {rest : List Char} (ends : Ends rest) :
    digits? (Nat.toDigits 10 n ++ rest) = some (digitsOf n, rest) := by
  rw [← map_digitsOf]
  exact digits?_append (digitsOf_ne_nil n) ends

/-- The first character of a count. -/
theorem toDigits_eq_cons (n : Nat) :
    ∃ d ds, Nat.toDigits 10 n = digitChar d :: ds := by
  cases digits : digitsOf n with
  | nil => exact absurd digits (digitsOf_ne_nil n)
  | cons d ds => exact ⟨d, ds.map digitChar, by rw [← map_digitsOf, digits, List.map_cons]⟩

theorem readExponent_exponentText (plus : Bool) (e : Int) :
    readExponent (exponentText plus e) = some (some e) := by
  have read := digits?_toDigits e.natAbs ends_nil
  rw [List.append_nil] at read
  unfold exponentText
  by_cases negative : e < 0
  · have value : -(e.natAbs : Int) = e := by omega
    generalize e.natAbs = k at read value ⊢
    simp [readExponent, negative, read, value]
  · have value : (e.natAbs : Int) = e := by omega
    generalize e.natAbs = k at read value ⊢
    cases plus with
    | true => simp [readExponent, negative, read, value]
    | false =>
        obtain ⟨d, ds, starts⟩ := toDigits_eq_cons k
        rw [starts] at read
        simp [readExponent, negative, starts, digitChar_ne_sign d, read, value]

/-- The exponent of a numeral as it stands at the end of the text. -/
theorem readExponent_text (plus : Bool) (exponent : Option Int) :
    readExponent ((exponent.map (exponentText plus)).getD []) = some exponent := by
  cases exponent with
  | none => rfl
  | some e => exact readExponent_exponentText plus e

theorem ends_exponent (plus : Bool) (exponent : Option Int) :
    Ends ((exponent.map (exponentText plus)).getD []) := by
  cases exponent with
  | none => exact ends_nil
  | some e => exact ends_cons rfl

theorem readUnsigned_text (plus negative : Bool) (whole : Nat) (fraction : List (Fin 10))
    (exponent : Option Int) :
    readUnsigned negative (Nat.toDigits 10 whole
      ++ ((if fraction.isEmpty then [] else '.' :: fraction.map digitChar)
        ++ (exponent.map (exponentText plus)).getD [])) =
      some ⟨negative, whole, fraction, exponent⟩ := by
  have lean : ¬ ((digitsOf whole).head? = some 0 ∧ (digitsOf whole).length ≠ 1) :=
    fun idle => idle.2 (head?_digitsOf idle.1)
  unfold readUnsigned
  cases fraction with
  | nil =>
      rw [List.isEmpty_nil, if_pos rfl, List.nil_append,
        digits?_toDigits whole (ends_exponent plus exponent)]
      simp only [if_neg lean, ofDigits_digitsOf]
      cases exponent with
      | none => rfl
      | some e =>
          show (readExponent (exponentText plus e)).map _ = _
          rw [readExponent_exponentText]
          rfl
  | cons d ds =>
      rw [List.isEmpty_cons, if_neg Bool.false_ne_true, List.cons_append,
        digits?_toDigits whole (ends_cons rfl)]
      simp only [if_neg lean, ofDigits_digitsOf]
      rw [digits?_append (List.cons_ne_nil d ds) (ends_exponent plus exponent)]
      simp [readExponent_text]

/-- A numeral is what its text spells, whichever exponents have a sign. -/
@[simp] theorem read?_text (plus : Bool) (n : Numeral) : read? (n.text plus) = some n := by
  obtain ⟨negative, whole, fraction, exponent⟩ := n
  have read := readUnsigned_text plus negative whole fraction exponent
  unfold text
  simp only [List.append_assoc]
  cases negative with
  | true => exact read
  | false =>
      obtain ⟨d, ds, starts⟩ := toDigits_eq_cons whole
      rw [starts] at read ⊢
      simp only [Bool.false_eq_true, if_false, List.nil_append, List.cons_append] at read ⊢
      unfold read?
      split
      case h_1 signed => exact absurd (List.cons.inj signed).1 (digitChar_ne_sign d).2
      case h_2 => exact read

end Numeral

end Tendril
