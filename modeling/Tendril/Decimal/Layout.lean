import Tendril.Decimal.Numeral
import Tendril.Decimal.Shortest

/-!
# Layouts

How the digits of a number are set out. A layout is a handful of decisions; the three that this
library writes numbers in are at the end: one for data, one for sentences, one for descriptions.
-/

namespace Tendril

/-- The decisions of a number format. -/
structure Layout where
  /-- Whether a number is written with an exponent, told from the exponent of its leading digit. -/
  usesExponent : Int → Bool
  /-- A whole number ends in `.0`. -/
  pointZero : Bool
  /-- A positive exponent has a plus sign. -/
  plus : Bool
  tie : Tie

namespace Layout

/-- The last digit of a number. -/
def lastDigit (n : Nat) : Fin 10 := ⟨n % 10, Nat.mod_lt n (by decide)⟩

/-- The last `count` digits of a number, highest first. -/
def lowDigits (count n : Nat) : List (Fin 10) :=
  (List.range count).reverse.map fun i => lastDigit (n / Nat.pow 10 i)

/-- Sets out `digits · 10 ^ exponent`. -/
def numeral (layout : Layout) (negative : Bool) (value : Decimal) : Numeral :=
  let count := (Nat.toDigits 10 value.digits).length
  let order := value.exponent + count - 1
  let bare : List (Fin 10) := if layout.pointZero then [lastDigit 0] else []
  if value.digits = 0 then ⟨negative, 0, bare, none⟩
  else if layout.usesExponent order then
    ⟨negative, value.digits / Nat.pow 10 (count - 1), lowDigits (count - 1) value.digits,
      some order⟩
  else if 0 ≤ value.exponent then
    ⟨negative, value.digits * Nat.pow 10 value.exponent.toNat, bare, none⟩
  else
    let places := (-value.exponent).toNat
    ⟨negative, value.digits / Nat.pow 10 places, lowDigits places value.digits, none⟩

/-- The numeral of a finite double, with the fewest digits that name it. -/
def ofFloat (layout : Layout) (x : Float) : Numeral :=
  let magnitude := Dyadic64.ofFloat x
  layout.numeral (Dyadic64.isNegative x)
    (if magnitude.mantissa = 0 then ⟨0, 0⟩ else magnitude.shortest layout.tie)

/-- The text of any double. -/
def write (layout : Layout) (x : Float) : String :=
  if x.isNaN then "NaN"
  else if x.isInf then (if x < 0.0 then "-inf" else "inf")
  else String.ofList ((layout.ofFloat x).text layout.plus)

/-- Numbers in data are plain from 1e-5 up to 1e16, and otherwise have a signed exponent. -/
def data : Layout where
  usesExponent order := order < -5 || 16 ≤ order
  pointZero := true
  plus := true
  tie := .toEven

/-- Numbers in sentences are written out, however long. -/
def sentence : Layout where
  usesExponent _ := false
  pointZero := false
  plus := false
  tie := .up

/-- Numbers in descriptions are plain from 1e-4 up to 1e16. -/
def description : Layout where
  usesExponent order := order < -4 || 16 ≤ order
  pointZero := true
  plus := false
  tie := .up

end Layout

end Tendril
