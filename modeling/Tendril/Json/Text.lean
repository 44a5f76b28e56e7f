/-!
# Quoted text

Between quotes a character stands for itself unless it is a quote, a backslash or a control
character; those are written as escapes. An escape may also give the 16-bit units of a character in
hexadecimal, two of them for a character beyond the basic plane; a unit of such a pair that stands
alone is well formed and names no character.
-/

namespace Tendril

namespace Json

def hexDigit (n : Nat) : Char := if n < 10 then Char.ofNat (48 + n) else Char.ofNat (87 + n)

/-- The value of a hexadecimal digit of either case. -/
def hexValue? (c : Char) : Option Nat :=
  let n := c.toNat
  if 48 ≤ n ∧ n ≤ 57 then some (n - 48)
  else if 97 ≤ n ∧ n ≤ 102 then some (n - 87)
  else if 65 ≤ n ∧ n ≤ 70 then some (n - 55)
  else none

/-- The characters that have an escape of one letter, with that letter. -/
def letters : List (Char × Char) :=
  [('"', '"'), ('\\', '\\'), ('\n', 'n'), ('\r', 'r'), ('\t', 't'), ('\x08', 'b'), ('\x0c', 'f')]

/-- A character as it is written between quotes. -/
def escapeChar (c : Char) : List Char :=
  match letters.find? fun pair => pair.1 = c with
  | some (_, letter) => ['\\', letter]
  | none =>
      if c.toNat < 32 then
        ['\\', 'u', '0', '0', hexDigit (c.toNat / 16), hexDigit (c.toNat % 16)]
      else [c]

def escape (cs : List Char) : List Char := cs.flatMap escapeChar

/-- The character that an escape of one letter means. A solidus may be escaped and need not be. -/
def unescapeLetter? (letter : Char) : Option Char :=
  if letter = '/' then some '/' else (letters.find? fun pair => pair.2 = letter).map (·.1)

/-- The unit that four hexadecimal digits spell. -/
def unit? (a b c d : Char) : Option Nat := do
  return 4096 * (← hexValue? a) + 256 * (← hexValue? b) + 16 * (← hexValue? c) + (← hexValue? d)

/-- The numbers of the characters and units between two quotes, in front of which `done` is kept in
reverse; `none` if an escape is malformed. -/
def units? (done : List Nat) : List Char → Option (List Nat)
  | '\\' :: 'u' :: a :: b :: c :: d :: rest =>
      match unit? a b c d with
      | some unit => units? (unit :: done) rest
      | none => none
  | '\\' :: letter :: rest =>
      match unescapeLetter? letter with
      | some c => units? (c.toNat :: done) rest
      | none => none
  | c :: rest => if c = '\\' then none else units? (c.toNat :: done) rest
  | [] => some done.reverse

/-- The first unit of a pair. -/
def isLeading (unit : Nat) : Bool := 0xD800 ≤ unit && unit < 0xDC00

/-- The second unit of a pair. -/
def isTrailing (unit : Nat) : Bool := 0xDC00 ≤ unit && unit < 0xE000

/-- The characters that units name, in front of which `done` is kept in reverse; `none` if a unit of
a pair stands alone. -/
def characters? (done : List Char) : List Nat → Option (List Char)
  | [] => some done.reverse
  | unit :: rest =>
      if isLeading unit then match rest with
        | next :: rest =>
            if isTrailing next then
              characters?
                (Char.ofNat (0x10000 + 0x400 * (unit - 0xD800) + (next - 0xDC00)) :: done) rest
            else none
        | [] => none
      else if isTrailing unit then none
      else characters? (Char.ofNat unit :: done) rest

/-- What stands between two quotes: the outer `none` for malformed escapes, the inner for units that
name no character. -/
def unescape? (body : List Char) : Option (Option String) :=
  (units? [] body).map fun units => (characters? [] units).map String.ofList

end Json

end Tendril
