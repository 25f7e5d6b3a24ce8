import ScriptLint.Action
import ScriptLint.Check.Settings
import ScriptLint.Program.Basic
import ScriptLint.Text.Blank
import ScriptLint.Text.Lines
import ScriptLint.Trace

/-!
Shells as syntax validators: a shell reads a script without running it, and complains on its error
stream.
-/

namespace ScriptLint.Shell

/-- The lines that are not blank, trimmed and joined. -/
def diagnostic (stderr : ByteArray) : String :=
  let trimmed := (lines (Utf8.decodeLossy stderr)).map trim
  String.intercalate "; " ((trimmed.filter fun line => !line.isEmpty).map String.ofList)

/-- What the output of a shell says about a script. -/
def validation (output : ProgramOutput) : Validation :=
  if output.status.isSuccess then .valid else .invalid (diagnostic output.stderr)

def validate (programs : Programs) (shell path : String) :
    StateM FileTree (Except IoError Validation) := do
  return (← programs shell ["-n", path]).map validation

def validationLog (path : String) : Except IoError Validation → List LogEntry
  | .ok .valid => []
  | .ok (.invalid diagnostic) =>
    [{ level := .debug, message := "syntax validation failed"
       fields := [("path", path), ("diagnostic", diagnostic)] }]
  | .error e =>
    [{ level := .warn, message := "syntax validator failed"
       fields := [("path", path), ("error", e.message)] }]

def probe (programs : Programs) (shell : String) : Action Unit := do
  let _ ← orFail (programs shell ["--version"]) (.validatorUnavailable shell)

end ScriptLint.Shell
