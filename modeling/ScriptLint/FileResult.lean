import ScriptLint.Finding

/-!
Results: the findings on one file, and whether it passes.
-/

namespace ScriptLint

structure FileResult where
  path : String
  /-- The script opted out of all checks. -/
  ignored : Bool := false
  findings : List Finding := []
  deriving DecidableEq, Repr

namespace FileResult

def count (severity : Severity) (r : FileResult) : Nat :=
  (r.findings.filter (·.severity == severity)).length

def warningCount (r : FileResult) : Nat :=
  r.count .warning

def criticalCount (r : FileResult) : Nat :=
  r.count .critical

/-- An ignored file passes, and so does a file without critical findings. -/
def passed (r : FileResult) : Bool :=
  r.ignored || !r.findings.any (·.severity == .critical)

end FileResult

end ScriptLint
