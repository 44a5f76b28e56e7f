/-!
# Dyadics

A finite double without its sign is a whole number of units, the unit a power of two. Its bits are
split here; everything after that is exact arithmetic on naturals.
-/

namespace Tendril

/-- A finite, non-negative double, `mantissa · 2 ^ exponent`. -/
structure Dyadic64 where
  mantissa : Nat
  exponent : Int
  deriving DecidableEq, Repr

namespace Dyadic64

/-- The exponent of the smallest unit. -/
def leastExponent : Int := -1074

/-- Doubles have this many mantissas for every exponent but the least, and twice as many there. -/
def binade : Nat := Nat.pow 2 52

/-- The sign bit, which zero has too. -/
def isNegative (x : Float) : Bool := x.toBits.toNat / Nat.pow 2 63 = 1

/-- The magnitude of a finite double. -/
def ofFloat (x : Float) : Dyadic64 :=
  let number := x.toBits.toNat % Nat.pow 2 63
  if number / binade = 0 then ⟨number, leastExponent⟩
  else ⟨binade + number % binade, leastExponent + (number / binade : Nat) - 1⟩

/-- A power of two, whose neighbour below is nearer than the one above. -/
def crowdedBelow (x : Dyadic64) : Bool := x.mantissa = binade && leastExponent < x.exponent

end Dyadic64

end Tendril
