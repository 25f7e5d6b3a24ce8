/-!
Exit codes of the program.
-/

namespace ScriptLint

inductive ExitCode where
  | success
  /-- Files failed, or there were none. -/
  | checkFailed
  /-- The run could not be carried out. -/
  | notRun
  deriving DecidableEq, Repr

def ExitCode.toNat : ExitCode → Nat
  | .success => 0
  | .checkFailed => 1
  | .notRun => 2

end ScriptLint
