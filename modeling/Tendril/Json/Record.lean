import Tendril.Decimal.Reading
import Tendril.Json.Parser
import Tendril.Json.Printer

/-!
# Reading values out of JSON

A record is an object with named fields in any order, or an array of the fields in the order in
which they are declared. Names that no field has are passed over, and a field that occurs twice
spoils the record. A field that is left out is a matter for the record: some must be there, others
have a standard value.
-/

namespace Tendril

namespace Json

/-- Counts have 64 bits. -/
def count? : Json → Option UInt64
  | .number n => n.toNat?.bind fun k => if k < UInt64.size then some (UInt64.ofNat k) else none
  | _ => none

/-- Indices have 32 bits. -/
def index? : Json → Option UInt32
  | .number n => n.toNat?.bind fun k => if k < UInt32.size then some (UInt32.ofNat k) else none
  | _ => none

def float? : Json → Option Float
  | .number n => n.toFloat?
  | _ => none

def text? : Json → Option String
  | .string s => s
  | _ => none

/-- A string of exactly one character. -/
def char? (value : Json) : Option Char :=
  match (text? value).map String.toList with
  | some [c] => some c
  | _ => none

def list? {β : Type} (item? : Json → Option β) : Json → Option (List β)
  | .array items => items.mapM item?
  | _ => none

/-- A value or null. -/
def optional? {β : Type} (value? : Json → Option β) : Json → Option (Option β)
  | .null => some none
  | value => (value? value).map some

/-- One name of several: the name itself, or an object that gives nothing but the name. -/
def choice? : Json → Option String
  | .string s => s
  | .object [(name, .null)] => name
  | _ => none

/-- How often a name occurs. -/
def occurrences (name : String) (members : List (Option String × Json)) : Nat :=
  members.countP fun m => m.1 == some name

/-- The value of the first member with a name. -/
def member? (name : String) (members : List (Option String × Json)) : Option Json :=
  (members.find? fun m => m.1 == some name).map (·.2)

/-- The fields of a record by name, `none` for those left out. Every key has to be text. -/
def fields? (names : List String) : Json → Option (String → Option Json)
  | .object members =>
      if members.all (fun m => m.1.isSome) && names.all (fun name => occurrences name members ≤ 1)
      then some fun name => member? name members
      else none
  | .array items =>
      if items.length ≤ names.length then some fun name => items[names.idxOf name]?
      else none
  | _ => none

/-- A field that must be there. -/
def required {β : Type} (value? : Json → Option β) (field : Option Json) : Option β :=
  field.bind value?

/-- A field that may be left out. -/
def withDefault {β : Type} (standard : β) (value? : Json → Option β) : Option Json → Option β
  | none => some standard
  | some value => value? value

mutual

/-- Whether a value is made of texts and of numbers within range, with at most `depth` arrays and
objects open at a time. -/
def isPlain (depth : Nat) : Json → Bool
  | .number n => n.toFloat?.isSome
  | .string s => s.isSome
  | .array items => match depth with
      | 0 => false
      | depth + 1 => arePlain depth items
  | .object members => match depth with
      | 0 => false
      | depth + 1 => membersArePlain depth members
  | _ => true

/-- Whether all items are plain. -/
def arePlain (depth : Nat) : List Json → Bool
  | [] => true
  | item :: rest => isPlain depth item && arePlain depth rest

/-- Whether all members are plain. -/
def membersArePlain (depth : Nat) : List (Option String × Json) → Bool
  | [] => true
  | (key, value) :: rest => key.isSome && isPlain depth value && membersArePlain depth rest

end

end Json

end Tendril
