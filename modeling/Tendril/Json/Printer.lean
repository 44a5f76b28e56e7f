import Tendril.Json.Basic
import Tendril.Json.Text

/-!
# Writing JSON

The text of a value, without blanks. A string that stands for no text is written as half of a
character, which is what it is.
-/

namespace Tendril

namespace Json

/-- A string in quotes. -/
def quote : Option String → String
  | some s => "\"" ++ String.ofList (escape s.toList) ++ "\""
  | none => "\"\\ud800\""

mutual

/-- Writes a value behind what is written already. -/
def writeOnto (out : String) : Json → String
  | .null => out ++ "null"
  | .bool b => out ++ (if b then "true" else "false")
  | .number n => out ++ String.ofList (n.text true)
  | .string s => out ++ quote s
  | .array items => (writeItems (out.push '[') true items).push ']'
  | .object members => (writeMembers (out.push '\x7b') true members).push '\x7d'

/-- Writes the items of an array, with a comma in front of all but the first. -/
def writeItems (out : String) (first : Bool) : List Json → String
  | [] => out
  | item :: rest => writeItems (writeOnto (if first then out else out.push ',') item) false rest

/-- Writes the members of an object, with a comma in front of all but the first. -/
def writeMembers (out : String) (first : Bool) : List (Option String × Json) → String
  | [] => out
  | (key, value) :: rest =>
      let out := (if first then out else out.push ',') ++ quote key
      writeMembers (writeOnto (out.push ':') value) false rest

end

/-- The text of a value. -/
def write (value : Json) : String := writeOnto "" value

end Json

end Tendril
