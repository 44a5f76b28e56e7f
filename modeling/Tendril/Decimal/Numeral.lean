/-!
# Numerals

A number as it is spelled: sign, whole part, digits after the point, exponent. Two spellings of one
number are two numerals. A count is spelled with the whole part alone.
-/

namespace Tendril

/-- A spelled number. -/
structure Numeral where
  negative : Bool
  whole : Nat
  fraction : List (Fin 10)
  exponent : Option Int
  deriving DecidableEq, Repr

namespace Numeral

/-- The numeral of a count. -/
def ofNat (n : Nat) : Numeral := ⟨false, n, [], none⟩

/-- Spelled without a point and without an exponent. -/
def isWhole (n : Numeral) : Bool := n.fraction.isEmpty && n.exponent.isNone

/-- The count that the numeral spells. A minus sign spells none, not even before zero. -/
def toNat? (n : Numeral) : Option Nat :=
  if n.isWhole && !n.negative then some n.whole else none

def digitChar (d : Fin 10) : Char := Char.ofNat (48 + d.val)

/-- The exponent mark and the signed exponent; `plus` writes the sign of a positive one too. -/
def exponentText (plus : Bool) (e : Int) : List Char :=
  'e' :: (if e < 0 then ['-'] else if plus then ['+'] else []) ++ Nat.toDigits 10 e.natAbs

/-- The characters of a numeral. -/
def text (plus : Bool) (n : Numeral) : List Char :=
  (if n.negative then ['-'] else []) ++ Nat.toDigits 10 n.whole
    ++ (if n.fraction.isEmpty then [] else '.' :: n.fraction.map digitChar)
    ++ (n.exponent.map (exponentText plus)).getD []

/-- The value of a decimal digit. -/
def digit? (c : Char) : Option (Fin 10) :=
  if h : c.isDigit ∧ c.toNat - 48 < 10 then some ⟨c.toNat - 48, h.2⟩ else none

/-- A run of at least one digit, and what follows it. -/
def digits? (cs : List Char) : Option (List (Fin 10) × List Char) :=
  match (cs.takeWhile Char.isDigit).filterMap digit? with
  | [] => none
  | ds => some (ds, cs.dropWhile Char.isDigit)

/-- The number that a list of digits spells. -/
def ofDigits (ds : List (Fin 10)) : Nat := ds.foldl (fun value d => 10 * value + d.val) 0

/-- The exponent at the end of a numeral: absent, or a mark, a sign and at least one digit. -/
def readExponent : List Char → Option (Option Int)
  | [] => some none
  | c :: rest =>
      if c = 'e' ∨ c = 'E' then
        let (negative, digits) : Bool × List Char := match rest with
          | '+' :: ds => (false, ds)
          | '-' :: ds => (true, ds)
          | ds => (false, ds)
        match digits? digits with
        | some (ds, []) => some (some (if negative then -(ofDigits ds : Int) else ofDigits ds))
        | _ => none
      else none

/-- Everything after the sign. The whole part has no idle leading zero, and digits stand on both
sides of a point. -/
def readUnsigned (negative : Bool) (cs : List Char) : Option Numeral :=
  match digits? cs with
  | none => none
  | some (whole, rest) =>
      if whole.head? = some 0 ∧ whole.length ≠ 1 then none
      else match rest with
        | '.' :: tail => match digits? tail with
            | none => none
            | some (fraction, tail) =>
                (readExponent tail).map fun e => ⟨negative, ofDigits whole, fraction, e⟩
        | tail => (readExponent tail).map fun e => ⟨negative, ofDigits whole, [], e⟩

/-- Reads a whole list of characters as one numeral. -/
def read? : List Char → Option Numeral
  | '-' :: cs => readUnsigned true cs
  | cs => readUnsigned false cs

end Numeral

end Tendril
