import Tendril.Decimal.Dyadic

/-!
# Shortest decimals

The fewest decimal digits that still name a given double. A positive double stands for an interval
of reals, those that round to it; the coarsest decimal grid with a point in that interval gives the
digits, and of two such points the nearer. All of it is exact arithmetic on naturals.
-/

namespace Tendril

/-- A positive decimal, `digits · 10 ^ exponent`. -/
structure Decimal where
  digits : Nat
  exponent : Int
  deriving DecidableEq, Repr

/-- Which of two equally near decimals stands for the number. -/
inductive Tie where
  | toEven
  | up
  deriving DecidableEq, Repr

namespace Dyadic64

/-- The number over the grid `10 ^ scale`, as a quotient of naturals: numerator for one unit of the
mantissa, and denominator. -/
def overGrid (x : Dyadic64) (scale : Int) : Nat × Nat :=
  (Nat.pow 2 x.exponent.toNat * Nat.pow 10 (-scale).toNat,
    Nat.pow 2 (-x.exponent).toNat * Nat.pow 10 scale.toNat)

/-- The decimal `digits · 10 ^ scale` rounds to `x`: it lies between the midpoints to the two
neighbours, and on a midpoint only if the mantissa is even. -/
@[inline] def names (x : Dyadic64) (scale : Int) (digits : Nat) : Bool :=
  let (unit, size) := x.overGrid scale
  let low := (4 * x.mantissa - if x.crowdedBelow then 1 else 2) * unit
  let high := (4 * x.mantissa + 2) * unit
  let point := 4 * digits * size
  if x.mantissa % 2 = 0 then low ≤ point && point ≤ high else low < point && point < high

/-- The grid point that names `x`, if the grid has one: the nearer of the two around `x`. -/
def onGrid? (tie : Tie) (x : Dyadic64) (scale : Int) : Option Decimal :=
  let (unit, size) := x.overGrid scale
  let below := x.mantissa * unit / size
  let above := below + 1
  match x.names scale below, x.names scale above with
  | false, false => none
  | true, false => some ⟨below, scale⟩
  | false, true => some ⟨above, scale⟩
  | true, true =>
      match compare (2 * x.mantissa * unit) ((below + above) * size) with
      | .lt => some ⟨below, scale⟩
      | .gt => some ⟨above, scale⟩
      | .eq => match tie with
          | .up => some ⟨above, scale⟩
          | .toEven => some ⟨if below % 2 = 0 then below else above, scale⟩

/-- A power of ten that `x` stays below, a few orders above the least at most. -/
def ceilingOrder (x : Dyadic64) : Int :=
  ((x.mantissa.log2 : Int) + 1 + x.exponent) * 30103 / 100000 + 2

/-- The exact value, for a number that no short decimal names. -/
def exact (x : Dyadic64) : Decimal :=
  if 0 ≤ x.exponent then ⟨x.mantissa * Nat.pow 2 x.exponent.toNat, 0⟩
  else ⟨x.mantissa * Nat.pow 5 (-x.exponent).toNat, x.exponent⟩

/-- The decimal with the fewest digits that names a positive `x`. -/
def shortest (tie : Tie) (x : Dyadic64) : Decimal :=
  ((List.range 21).findSome? fun (n : Nat) => x.onGrid? tie (x.ceilingOrder - n)).getD x.exact

end Dyadic64

end Tendril
