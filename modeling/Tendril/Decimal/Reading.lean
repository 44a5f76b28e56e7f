import Tendril.Decimal.Numeral

/-!
# Reading numerals

A numeral becomes a double in two steps, and each of them may round. Its digits are collected in a
word of 64 bits, from the left and as many as fit, and the word becomes a double; that double is
scaled by the power of ten that is left. Up to fifteen digits and the twenty-second power only the
scaling rounds, and the double is the nearest one; a longer numeral may be read as a neighbour of
it.
-/

namespace Tendril

namespace Numeral

/-- Numbers below this fit a word. -/
def wordLimit : Nat := UInt64.size

/-- The most leading digits of a number that fit a word, and how many digits are left out. -/
def leading (n : Nat) : Nat × Nat :=
  if n < wordLimit then (n, 0)
  else
    let (word, dropped) := leading (n / 10)
    (word, dropped + 1)
termination_by n
decreasing_by
  have : 0 < wordLimit := by decide
  omega

/-- Appends digits to a word, up to the first that does not fit, and counts those that did. -/
def collect (word : Nat) : List (Fin 10) → Nat × Nat
  | [] => (word, 0)
  | d :: rest =>
      if 10 * word + d.val < wordLimit then
        let (word, taken) := collect (10 * word + d.val) rest
        (word, taken + 1)
      else (word, 0)

/-- The greatest power of ten among the doubles. -/
def greatestPower : Nat := 308

/-- The double nearest to a power of ten. -/
def powerOfTen (k : Nat) : Float := Float.ofScientific 1 false k

/-- Multiplies by a power of ten, unless the product overflows. -/
def scaleUp? (x : Float) (k : Nat) : Option Float :=
  if k ≤ greatestPower then
    let scaled := x * powerOfTen k
    if scaled.isInf then none else some scaled
  else if x == 0.0 then some x
  else none

/-- Divides by a power of ten, in strides if the power is beyond the doubles. -/
def scaleDown (x : Float) (k : Nat) : Float :=
  if k ≤ greatestPower then x / powerOfTen k
  else if x == 0.0 then x
  else scaleDown (x / powerOfTen greatestPower) (k - greatestPower)
termination_by k
decreasing_by
  have : greatestPower = 308 := rfl
  omega

/-- The double that a word times a power of ten is read as. -/
def scaled? (word : Nat) (scale : Int) : Option Float :=
  if 0 ≤ scale then scaleUp? (Float.ofNat word) scale.toNat
  else some (scaleDown (Float.ofNat word) (-scale).toNat)

/-- The double that a numeral is read as, unless it overflows. -/
def toFloat? (n : Numeral) : Option Float :=
  let (word, dropped) := leading n.whole
  let (word, taken) := collect word n.fraction
  (scaled? word (n.exponent.getD 0 + dropped - taken)).map fun x => if n.negative then -x else x

end Numeral

end Tendril
