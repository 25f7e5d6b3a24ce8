import ScriptLint.ExitCode

/-!
Outcomes of formatting: what happened to each file, and what it means for the run.
-/

namespace ScriptLint

inductive Outcome where
  | unchanged
  | formatted
  /-- The file differs from its formatted form, and was left alone. -/
  | needsFormat
  | failed (reason : String)
  deriving DecidableEq, Repr

namespace Outcome

/-- A file that needs formatting counts as a failure where files are only checked. -/
def isFailure (checkOnly : Bool) : Outcome → Bool
  | failed _ => true
  | needsFormat => checkOnly
  | unchanged | formatted => false

/-- The exit code of a run with these outcomes. -/
def exitCode (checkOnly : Bool) (outcomes : List (String × Outcome)) : ExitCode :=
  if outcomes.any (·.2.isFailure checkOnly) then .checkFailed else .success

end Outcome

end ScriptLint
