/-!
# Configuration problems

Checking a configuration reports problems instead of stopping at the first one.
-/

namespace ItemBinning

/-- One problem of a configuration: the setting, its value as text, and why it
is not acceptable. -/
structure Problem where
  subject : String
  input : Option String := none
  valid : Bool := false
  explanation : String
  deriving Repr, DecidableEq, Inhabited

def Problem.text (problem : Problem) : String :=
  "'" ++ problem.subject ++ "' is invalid because " ++ problem.explanation

end ItemBinning
