import Mathlib
import Tendril.Scalar

/-!
# Doubles in order

A double is a word of a sign and a size. As long as it is a number its rank is its size, counted up
from zero or down from it, and doubles compare as their ranks do. So numbers are in order as the
integers are, but for the two zeros, which share a rank; a double that is no number compares with
nothing.
-/

namespace Tendril

open Float.Model
open Float.Model.UnpackedFloat (Sign unpackSign unpackExponent unpackMantissa)

/-- The word that a double is. -/
abbrev DoubleWord : Type := BitVec Format.binary64.numBits

namespace DoubleWord

/-- The word without its sign. -/
def size (w : DoubleWord) : Nat := (unpackExponent w).toNat * 2 ^ 52 + (unpackMantissa w).toNat

/-- How a number of some sign and size is taken apart. An exponent above the least one goes with a
mantissa that has its leading digit. -/
inductive Reads (sign : Sign) (size : Nat) : UnpackedFloat → Prop
  | infinity (top : size = 2047 * 2 ^ 52) : Reads sign size (.infinity sign)
  | zero (nothing : size = 0) : Reads sign size (.zero sign)
  | finite {mantissa : Nat} {exponent : Int} (some : 0 < mantissa) (fits : mantissa < 2 ^ 53)
      (least : -1074 ≤ exponent) (leading : exponent = -1074 ∨ 2 ^ 52 ≤ mantissa)
      (whole : size = (exponent + 1074) * 2 ^ 52 + mantissa) (below : size < 2047 * 2 ^ 52) :
      Reads sign size (.finite sign mantissa exponent some)

private theorem toNat_one_append (v : BitVec 52) : (1#1 ++ v).toNat = 2 ^ 52 + v.toNat := by
  rw [BitVec.toNat_append, ← Nat.shiftLeft_add_eq_or_of_lt v.isLt]
  rfl

theorem reads {w : DoubleWord} (number : (UnpackedFloat.unpack Format.binary64 w).isNaN = false) :
    Reads (.ofBitVec (unpackSign w)) w.size (.unpack Format.binary64 w) := by
  have small : (unpackMantissa w).toNat < 2 ^ 52 := (unpackMantissa w).isLt
  have room : (unpackExponent w).toNat < 2 ^ 11 := (unpackExponent w).isLt
  have full : unpackExponent w = -1#_ ↔ (unpackExponent w).toNat = 2047 := BitVec.toNat_inj.symm
  have least : unpackExponent w = 0#_ ↔ (unpackExponent w).toNat = 0 := BitVec.toNat_inj.symm
  have empty : unpackMantissa w = 0#_ ↔ (unpackMantissa w).toNat = 0 := BitVec.toNat_inj.symm
  have bias : (Format.binary64.exponentBias + Format.binary64.mantissaBitsWithoutImplicit : Int) =
    1075 := rfl
  rw [UnpackedFloat.unpack] at number ⊢
  rw [size]
  simp only [full, least, empty, bias] at number ⊢
  split at number
  case isTrue infinite =>
    rw [if_pos infinite]
    split at number
    case isTrue empty =>
      rw [if_pos empty]
      exact .infinity (by omega)
    case isFalse => cases number
  case isFalse finite =>
    rw [if_neg finite]
    split
    case isTrue least =>
      split
      case isTrue empty => exact .zero (by omega)
      case isFalse some =>
        exact .finite _ (by omega) (by omega) (by omega) (by omega) (by omega)
    case isFalse more =>
      have leading := toNat_one_append (unpackMantissa w)
      exact .finite _ (by omega) (by omega) (by omega) (by omega) (by omega)

namespace Reads

variable {s t : Sign} {j k : Nat}

/-- Finite numbers compare by exponent and then by mantissa, as their sizes do. -/
theorem compare_sizes {m n : Nat} {e f : Int} {some : 0 < m} {other : 0 < n}
    (left : Reads s j (.finite s m e some)) (right : Reads t k (.finite t n f other)) :
    (Ord.compare e f).then (Ord.compare m n) = Ord.compare (j : Int) k := by
  cases left with
  | finite _ fits least leading whole below =>
      cases right with
      | finite _ fits' least' leading' whole' below' =>
          rcases Int.lt_trichotomy e f with lower | rfl | higher
          · rw [Int.compare_eq_lt.mpr lower, Ordering.lt_then, Int.compare_eq_lt.mpr (by omega)]
          · rw [Int.compare_eq_eq.mpr rfl, Ordering.eq_then]
            rcases Nat.lt_trichotomy m n with less | rfl | more
            · rw [Nat.compare_eq_lt.mpr less, Int.compare_eq_lt.mpr (by omega)]
            · rw [Nat.compare_eq_eq.mpr rfl, Int.compare_eq_eq.mpr (by omega)]
            · rw [Nat.compare_eq_gt.mpr more, Int.compare_eq_gt.mpr (by omega)]
          · rw [Int.compare_eq_gt.mpr higher, Ordering.gt_then, Int.compare_eq_gt.mpr (by omega)]

private theorem compare_neg (a b : Int) : Ord.compare (-a) (-b) = (Ord.compare a b).swap := by
  rw [Int.compare_swap]
  simp only [Ord.compare, compareOfLessAndEq, Int.neg_lt_neg_iff, Int.neg_inj, eq_comm]

/-- Numbers compare as their sizes do, counted up from zero or down from it. -/
theorem compare {u v : UnpackedFloat} (left : Reads s j u) (right : Reads t k v) :
    u.compare v = some (Ord.compare (s.apply j) (t.apply k)) := by
  symm
  cases left with
  | infinity top =>
      cases right with
      | infinity last =>
          subst top last
          cases s <;> cases t <;> rfl
      | _ =>
          cases s <;> cases t <;> simp only [UnpackedFloat.compare, Sign.apply, Option.some.injEq,
            Int.compare_eq_lt, Int.compare_eq_gt] <;> omega
  | zero nothing =>
      cases right <;> cases s <;> cases t <;> simp only [UnpackedFloat.compare, Sign.apply,
        Option.some.injEq, Int.compare_eq_lt, Int.compare_eq_gt, Int.compare_eq_eq] <;> omega
  | @finite m e some fits least leading whole below =>
      have here : Reads s j (.finite s m e some) := .finite some fits least leading whole below
      cases right with
      | @finite n f other fits' least' leading' whole' below' =>
          have there : Reads t k (.finite t n f other) :=
            .finite other fits' least' leading' whole' below'
          have sizes := here.compare_sizes there
          -- Only numbers of one sign are told apart by their sizes.
          cases s with
          | positive =>
              cases t with
              | positive => exact congrArg Option.some sizes.symm
              | negative =>
                  refine congrArg Option.some (Int.compare_eq_gt.mpr ?_)
                  simp only [Sign.apply]
                  omega
          | negative =>
              cases t with
              | positive =>
                  refine congrArg Option.some (Int.compare_eq_lt.mpr ?_)
                  simp only [Sign.apply]
                  omega
              | negative =>
                  refine congrArg Option.some ((compare_neg j k).trans ?_)
                  rw [← sizes]
      | _ =>
          cases s <;> cases t <;> simp only [UnpackedFloat.compare, Sign.apply, Option.some.injEq,
            Int.compare_eq_lt, Int.compare_eq_gt] <;> omega

end Reads

/-- The size of a word, counted up from zero or down from it. -/
def rank (w : DoubleWord) : Int := (Sign.ofBitVec (unpackSign w)).apply w.size

end DoubleWord

namespace Double

/-- The word that a double is. -/
def word (x : Float) : DoubleWord := x.toModel.toBits.toBitVec

/-- The place of a number among all numbers. -/
def rank (x : Float) : Int := (word x).rank

/-- What is no number compares with nothing. -/
theorem compare_eq_none {u v : UnpackedFloat} (missing : u.isNaN = true ∨ v.isNaN = true) :
    u.compare v = none := by
  rcases missing with left | right
  · cases u with
    | notANumber => rfl
    | _ => cases left
  · cases v with
    | notANumber => cases u <;> rfl
    | _ => cases right

theorem compare_eq (a b : Float) : a.toModel.unpack.compare b.toModel.unpack =
    if a.isNaN = false ∧ b.isNaN = false then some (compare (rank a) (rank b)) else none := by
  cases left : a.isNaN with
  | true => exact compare_eq_none (.inl left)
  | false =>
      cases right : b.isNaN with
      | true => exact compare_eq_none (.inr right)
      | false => exact (DoubleWord.reads left).compare (DoubleWord.reads right)

/-- Two doubles pass a test of how they compare if both are numbers and their ranks pass it. -/
theorem test_iff (test : Option Ordering → Bool) (apart : test none = false) (a b : Float) :
    test (a.toModel.unpack.compare b.toModel.unpack) = true ↔
      a.isNaN = false ∧ b.isNaN = false ∧ test (some (compare (rank a) (rank b))) = true := by
  rw [compare_eq, ← and_assoc]
  by_cases numbers : a.isNaN = false ∧ b.isNaN = false
  · rw [if_pos numbers, and_iff_right numbers]
  · rw [if_neg numbers, apart, iff_false_left Bool.false_ne_true]
    exact fun both => numbers both.1

variable {a b : Float}

theorem lt_iff : a < b ↔ a.isNaN = false ∧ b.isNaN = false ∧ rank a < rank b := by
  have asked : a < b ↔ (a.toModel.unpack.compare b.toModel.unpack == some .lt) = true :=
    decide_eq_true_iff
  rw [asked, test_iff (· == some .lt) rfl, beq_iff_eq, Option.some_inj,
    Int.compare_eq_lt]

theorem le_iff : a ≤ b ↔ a.isNaN = false ∧ b.isNaN = false ∧ rank a ≤ rank b := by
  have asked : a ≤ b ↔ (a.toModel.unpack.compare b.toModel.unpack).any (·.isLE) = true :=
    decide_eq_true_iff
  rw [asked, test_iff (·.any (·.isLE)) rfl, Option.any_some, Int.isLE_compare]

theorem beq_iff : (a == b) = true ↔ a.isNaN = false ∧ b.isNaN = false ∧ rank a = rank b := by
  have asked : (a == b) = (a.toModel.unpack.compare b.toModel.unpack == some .eq) := rfl
  rw [asked, test_iff (· == some .eq) rfl, beq_iff_eq, Option.some_inj,
    Int.compare_eq_eq]

/-- A double is no number exactly if it differs from itself. -/
theorem isNaN_eq (x : Float) : Scalar.isNaN x = x.isNaN := by
  rw [Scalar.isNaN, Float.isNaN_eq_decide_eq_nan, Bool.eq_iff_iff, decide_eq_true_iff,
    Float.bne_eq, Bool.not_eq_true', Float.beq_self_eq_false_iff]

/-- Of two numbers, one that is not below the other is above it or the same. -/
theorem not_lt_iff (left : a.isNaN = false) (right : b.isNaN = false) : ¬ a < b ↔ b ≤ a := by
  rw [lt_iff, le_iff, and_iff_right left, and_iff_right right, and_iff_right right,
    and_iff_right left, Int.not_lt]

theorem isNaN_of_isFinite {x : Float} (finite : x.isFinite = true) : x.isNaN = false := by
  have asked : x.toModel.unpack.isFinite = true := finite
  show x.toModel.unpack.isNaN = false
  cases parts : x.toModel.unpack <;> simp_all [UnpackedFloat.isFinite, UnpackedFloat.isNaN]

/-- All doubles that are no numbers are one. -/
theorem eq_of_isNaN {a b : Float} (left : a.isNaN = true) (right : b.isNaN = true) : a = b := by
  rw [Float.isNaN_eq_decide_eq_nan, decide_eq_true_iff] at left right
  rw [left, right]

end Double

end Tendril
