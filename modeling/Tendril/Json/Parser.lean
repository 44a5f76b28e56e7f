import Tendril.Json.Token

/-!
# Reading JSON

The tokens of a text are put together on a stack of arrays and objects that are still open, so that
nesting is bounded by nothing but the text. Reading is strict: a comma stands between two values and
nowhere else, and nothing follows the value.
-/

namespace Tendril

namespace Json

/-- An array or object that is not closed yet; what it holds is kept in reverse. -/
inductive Pending where
  | array (items : List Json)
  | object (members : List (Option String × Json))
  /-- An object whose latest key waits for its value. -/
  | member (members : List (Option String × Json)) (key : Option String)

/-- What may come next. -/
inductive Want where
  | value
  /-- The first value or key, or the end right away. -/
  | first
  /-- A comma or the end. -/
  | next
  | key
  | colon

/-- A place between two tokens. -/
inductive Parser where
  | reading (pending : List Pending) (want : Want)
  | done (value : Json)

namespace Parser

def start : Parser := .reading [] .value

/-- Puts a finished value where it belongs. -/
def place? (value : Json) : List Pending → Option Parser
  | [] => some (.done value)
  | .array items :: rest => some (.reading (.array (value :: items) :: rest) .next)
  | .member members key :: rest => some (.reading (.object ((key, value) :: members) :: rest) .next)
  | .object _ :: _ => none

/-- Reads the first token of a value. -/
def value? (pending : List Pending) : Token → Option Parser
  | .literal value => place? value pending
  | .text s => place? (.string s) pending
  | .openArray => some (.reading (.array [] :: pending) .first)
  | .openObject => some (.reading (.object [] :: pending) .first)
  | _ => none

/-- Reads one token. -/
def step? : Parser → Token → Option Parser
  | .done _, _ => none
  | .reading pending .value, token => value? pending token
  | .reading (.array items :: rest) .first, .closeArray => place? (.array items.reverse) rest
  | .reading (.array items :: rest) .first, token => value? (.array items :: rest) token
  | .reading (.array items :: rest) .next, .closeArray => place? (.array items.reverse) rest
  | .reading (.array items :: rest) .next, .comma => some (.reading (.array items :: rest) .value)
  | .reading (.object members :: rest) .first, .closeObject =>
      place? (.object members.reverse) rest
  | .reading (.object members :: rest) .first, .text key =>
      some (.reading (.member members key :: rest) .colon)
  | .reading (.object members :: rest) .next, .closeObject =>
      place? (.object members.reverse) rest
  | .reading (.object members :: rest) .next, .comma =>
      some (.reading (.object members :: rest) .key)
  | .reading (.object members :: rest) .key, .text key =>
      some (.reading (.member members key :: rest) .colon)
  | .reading (.member members key :: rest) .colon, .colon =>
      some (.reading (.member members key :: rest) .value)
  | _, _ => none

/-- The value of a text that ends here. -/
def finish? : Parser → Option Json
  | .done value => some value
  | .reading .. => none

end Parser

/-- The value that tokens make up. -/
def ofTokens? (tokens : List Token) : Option Json :=
  (tokens.foldlM Parser.step? .start).bind Parser.finish?

/-- The value that a text spells. -/
def read? (s : String) : Option Json := (tokens? s.toList).bind ofTokens?

end Json

end Tendril
