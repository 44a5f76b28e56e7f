import Tendril.Decimal.Layout

/-!
# JSON values

Values as a text spells them: members in their order, repeated ones included, and numbers as
numerals. A string whose escapes name half of a character is well formed but stands for no text;
it is `none` here.
-/

namespace Tendril

/-- A JSON value. -/
inductive Json where
  | null
  | bool (b : Bool)
  | number (n : Numeral)
  | string (s : Option String)
  | array (items : List Json)
  | object (members : List (Option String × Json))
  deriving Inhabited

namespace Json

def ofText (s : String) : Json := .string (some s)

def ofNat (n : Nat) : Json := .number (.ofNat n)

/-- A double as a number; those that are no numbers become null. -/
def ofFloat (x : Float) : Json := if x.isFinite then .number (Layout.data.ofFloat x) else .null

/-- An object from named members. -/
def record (members : List (String × Json)) : Json :=
  .object (members.map fun m => (some m.1, m.2))

end Json

end Tendril
