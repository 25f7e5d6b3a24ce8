/-!
Findings: what a check reports about a script.
-/

namespace ScriptLint

/-- A critical finding fails the file; a warning does not. -/
inductive Severity where
  | warning
  | critical
  deriving DecidableEq, Repr

namespace Severity

/-- A warning ranks below a critical finding. -/
def rank : Severity → Nat
  | .warning => 0
  | .critical => 1

instance : LT Severity := ⟨fun a b => a.rank < b.rank⟩

instance (a b : Severity) : Decidable (a < b) := inferInstanceAs (Decidable (a.rank < b.rank))

def name : Severity → String
  | .warning => "warning"
  | .critical => "critical"

end Severity

/-- A problem that the check named `check` found, at a line if it belongs to one. -/
structure Finding where
  check : String
  severity : Severity
  message : String
  line : Option Nat := none
  deriving DecidableEq, Repr

end ScriptLint
