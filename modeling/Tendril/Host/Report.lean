import Tendril.Failure

/-!
# Reports

What a host is told when a plan is not carried out: the kind of the failure and its wording.
-/

namespace Tendril

/-- A failure as a host sees it. -/
structure Report where
  kind : String
  message : String
  deriving DecidableEq, Repr

namespace Report

def ofFailure (failure : Failure Float) : Report := ⟨failure.kind, failure.message⟩

/-- The report on a text that holds no plan. -/
def unreadable : Report := ⟨"invalid_json", "the text is not a plan"⟩

/-- A report in one line. -/
def line (r : Report) : String := s!"[{r.kind}] {r.message}"

end Report

end Tendril
