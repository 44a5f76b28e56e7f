import Tendril.Failure
import Tendril.Random.Source

/-!
# Rules

A rule puts one of its outputs in the place of every occurrence of its input symbol. A rule with a
single output draws no random word; any other draws once for each occurrence, from left to right.
What was put in is not read again.
-/

namespace Tendril

/-- A word over arbitrary symbols. -/
abbrev Word := List Char

/-- A rule as it is written down: it may still lack outputs. -/
structure RuleDraft where
  input : Char
  outputs : List Word
  deriving DecidableEq, Repr

/-- A rule that has at least one output. -/
structure Rule where
  input : Char
  first : Word
  others : List Word
  deriving DecidableEq, Repr

namespace RuleDraft

/-- The draft of a rule with one output. -/
def simple (input : Char) (output : Word) : RuleDraft := ⟨input, [output]⟩

/-- The rule that was drafted, if the draft has an output. -/
def rule? (d : RuleDraft) : Option Rule :=
  match d.outputs with
  | [] => none
  | first :: others => some ⟨d.input, first, others⟩

/-- The rule that was drafted, for a run that cannot do without it. -/
def rule {α : Type} (d : RuleDraft) : Except (Failure α) Rule :=
  d.rule?.elim (.error (.misuse (.noOutputs d.input))) .ok

end RuleDraft

namespace Rule

variable {σ : Type} [WordSource σ]

/-- The rule with one output. -/
def simple (input : Char) (output : Word) : Rule := ⟨input, output, []⟩

/-- The candidates, in the order in which they were given. -/
def outputs (r : Rule) : List Word := r.first :: r.others

def draft (r : Rule) : RuleDraft := ⟨r.input, r.outputs⟩

/-- What the next occurrence of the input turns into. -/
def pick (r : Rule) (s : σ) : Word × σ :=
  match r.others with
  | [] => (r.first, s)
  | _ :: _ =>
      let (i, s) := WordSource.choose r.others.length s
      (r.outputs.get i, s)

/-- Puts an output in the place of one symbol, if it is the input, and appends the result. -/
def substituteSymbol (r : Rule) (done : Array Char × σ) (symbol : Char) : Array Char × σ :=
  if symbol = r.input then
    let (output, s) := r.pick done.2
    (done.1.appendList output, s)
  else (done.1.push symbol, done.2)

/-- Puts outputs in the place of every occurrence of the input in a word. -/
def substitute (r : Rule) (w : Word) (s : σ) : Word × σ :=
  let (done, s) := w.foldl r.substituteSymbol (#[], s)
  (done.toList, s)

end Rule

end Tendril
