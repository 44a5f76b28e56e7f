import Tendril.Json.Basic
import Tendril.Json.Text

/-!
# Tokens

A text is read character by character. Outside of quotes, letters, digits, signs and points that
touch belong together and have to make up a literal or a numeral; brackets, commas and colons stand
for themselves, and blanks only keep things apart.
-/

namespace Tendril

namespace Json

/-- The pieces that a text is made of. -/
inductive Token where
  | openArray
  | closeArray
  | openObject
  | closeObject
  | comma
  | colon
  | literal (value : Json)
  | text (s : Option String)

/-- What the characters read last are part of; they are kept in reverse. -/
inductive Scan where
  | blank
  | bare (taken : List Char)
  | quoted (taken : List Char)
  /-- Right behind a backslash. -/
  | escaped (taken : List Char)

/-- A place in a text: what is being read, and the tokens before it, in reverse. -/
structure Lexer where
  scan : Scan
  tokens : List Token

def isBlank (c : Char) : Bool := c = ' ' || c = '\t' || c = '\n' || c = '\r'

/-- The characters of literals and numerals. -/
def isBare (c : Char) : Bool := c.isAlphanum || c = '+' || c = '-' || c = '.'

/-- The value of a literal or a numeral. -/
def bareValue? (cs : List Char) : Option Json :=
  if cs = ['n', 'u', 'l', 'l'] then some .null
  else if cs = ['t', 'r', 'u', 'e'] then some (.bool true)
  else if cs = ['f', 'a', 'l', 's', 'e'] then some (.bool false)
  else (Numeral.read? cs).map .number

/-- The tokens of one character. -/
def mark? : Char → Option Token
  | '[' => some .openArray
  | ']' => some .closeArray
  | '{' => some .openObject
  | '}' => some .closeObject
  | ',' => some .comma
  | ':' => some .colon
  | _ => none

namespace Lexer

def start : Lexer := ⟨.blank, []⟩

/-- Reads a character that belongs to nothing before it. -/
def begin? (tokens : List Token) (c : Char) : Option Lexer :=
  if isBlank c then some ⟨.blank, tokens⟩
  else if c = '"' then some ⟨.quoted [], tokens⟩
  else if isBare c then some ⟨.bare [c], tokens⟩
  else (mark? c).map fun token => ⟨.blank, token :: tokens⟩

/-- Reads one character. -/
def step? (l : Lexer) (c : Char) : Option Lexer :=
  match l.scan with
  | .blank => begin? l.tokens c
  | .bare taken =>
      if isBare c then some { l with scan := .bare (c :: taken) }
      else match bareValue? taken.reverse with
        | some value => begin? (.literal value :: l.tokens) c
        | none => none
  | .quoted taken =>
      if c = '"' then
        (unescape? taken.reverse).map fun s => ⟨.blank, .text s :: l.tokens⟩
      else if c = '\\' then some { l with scan := .escaped (c :: taken) }
      else if c.toNat < 32 then none
      else some { l with scan := .quoted (c :: taken) }
  | .escaped taken => some { l with scan := .quoted (c :: taken) }

/-- The tokens of a text that ends here. -/
def finish? (l : Lexer) : Option (List Token) :=
  match l.scan with
  | .blank => some l.tokens.reverse
  | .bare taken =>
      (bareValue? taken.reverse).map fun value => (.literal value :: l.tokens).reverse
  | _ => none

end Lexer

/-- The tokens of a text. -/
def tokens? (cs : List Char) : Option (List Token) :=
  (cs.foldlM Lexer.step? .start).bind Lexer.finish?

end Json

end Tendril
