import ScriptLint.Finding

/-!
The checks: their names, what they look for, and the files that they apply to.
-/

namespace ScriptLint

inductive Check where
  | shellSyntax
  | shebang
  | failFast
  | pipefail
  | executable
  | palette
  | loggingUsage
  | readonlyConstants
  | localVariables
  | descriptionHeader
  | envIntegration
  deriving DecidableEq, Repr

namespace Check

def all : List Check :=
  [shellSyntax, shebang, failFast, pipefail, executable, palette, loggingUsage, readonlyConstants,
    localVariables, descriptionHeader, envIntegration]

def name : Check → String
  | shellSyntax => "syntax"
  | shebang => "shebang"
  | failFast => "fail-fast"
  | pipefail => "pipefail"
  | executable => "executable"
  | palette => "palette"
  | loggingUsage => "logging-usage"
  | readonlyConstants => "readonly-constants"
  | localVariables => "local-variables"
  | descriptionHeader => "description-header"
  | envIntegration => "env-integration"

/-- The gravest finding of a check. -/
def severity : Check → Severity
  | shellSyntax | shebang => .critical
  | _ => .warning

def description : Check → String
  | shellSyntax => "file must parse as valid shell (external validator)"
  | shebang => "first line must be a shebang referencing the expected interpreter"
  | failFast => "script should stop on error (set -e / set -o errexit)"
  | pipefail => "pipelines should fail on any stage (set -o pipefail)"
  | executable => "script file should have an execute permission bit"
  | palette => "color variables must use the reference palette codes"
  | loggingUsage => "scripts defining readonly colors should use the logging helpers"
  | readonlyConstants => "uppercase constants should be declared readonly"
  | localVariables => "functions should declare their variables local"
  | descriptionHeader => "line 2 must be a comment describing the script"
  | envIntegration => "scripts must load the shared environment"

/-- The interpreter that a script with the extension is for. -/
def interpreter? (extension : String) : Option String :=
  if extension = "sh" then some "bash"
  else if extension = "py" then some "python"
  else none

def appliesTo (check : Check) (extension : String) : Bool :=
  match check with
  | palette => true
  | shebang => (interpreter? extension).isSome
  | envIntegration => extension == "sh" || extension == "py"
  | _ => extension == "sh"

def named? (text : String) : Option Check :=
  all.find? fun check => check.name == text

theorem mem_all (check : Check) : check ∈ all := by
  cases check <;> decide

theorem name_injective {a b : Check} (h : a.name = b.name) : a = b := by
  cases a <;> cases b <;> first | rfl | exact absurd h (by decide)

def warn (check : Check) (message : String) (line : Option Nat := none) : Finding :=
  { check := check.name, severity := .warning, message, line }

def fail (check : Check) (message : String) (line : Option Nat := none) : Finding :=
  { check := check.name, severity := .critical, message, line }

end Check

end ScriptLint
