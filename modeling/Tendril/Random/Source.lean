/-!
# Random words

A source is a state from which random words of 64 bits are drawn one after the other. A choice among
equals scales a word to the number of alternatives and draws again where scaling would favour some;
a source that never comes up with a usable word is cut off, and its last word decides.
-/

namespace Tendril

/-- States that random words can be drawn from. -/
class WordSource (σ : Type) where
  draw : σ → UInt64 × σ

namespace WordSource

variable {σ : Type} [WordSource σ]

/-- A word scaled to `k` alternatives, that is `w · k / 2 ^ 64`. -/
def scaled (k : Nat) (w : UInt64) : Nat := w.toNat * k / UInt64.size

/-- The fraction that scaling drops stays in a zone in which all alternatives are as likely. -/
def isFair (k : Nat) (w : UInt64) : Bool :=
  w.toNat * k % UInt64.size ≤ k <<< (63 - k.log2) - 1

theorem scaled_lt (n : Nat) (w : UInt64) : scaled (n + 1) w < n + 1 := by
  rw [scaled, Nat.div_lt_iff_lt_mul (by decide), Nat.mul_comm]
  exact Nat.mul_lt_mul_of_pos_left w.toNat_lt (Nat.succ_pos n)

/-- One of `n + 1` alternatives, after at most `tries` words that are thrown away. -/
def chooseWithin (tries n : Nat) (s : σ) : Fin (n + 1) × σ :=
  let (w, s) := draw s
  match tries with
  | 0 => (⟨scaled (n + 1) w, scaled_lt n w⟩, s)
  | tries + 1 =>
      if isFair (n + 1) w then (⟨scaled (n + 1) w, scaled_lt n w⟩, s)
      else chooseWithin tries n s

/-- No source in use throws this many words away. -/
def patience : Nat := UInt32.size

/-- One of `n + 1` alternatives. -/
def choose (n : Nat) (s : σ) : Fin (n + 1) × σ := chooseWithin patience n s

end WordSource

/-- A source that answers the words of a list, and zeros after them. -/
structure Script where
  words : List UInt64
  /-- How many words were drawn. -/
  drawn : Nat

namespace Script

def ofList (words : List UInt64) : Script := ⟨words, 0⟩

instance : WordSource Script where
  draw s := match s.words with
    | [] => (0, { s with drawn := s.drawn + 1 })
    | w :: rest => (w, ⟨rest, s.drawn + 1⟩)

end Script

end Tendril
