import ScriptLint.Analysis
import ScriptLint.Command.Host
import ScriptLint.Program.Shell
import ScriptLint.Workers

/-!
Inspection: what a worker does with a candidate. It reads the file, looks up its permission bits,
has the shell read it, and runs the checks on what it has read.
-/

namespace ScriptLint

/-- The settings of the checks in a run with this configuration. -/
def Config.settings (config : Config) (validator : Option Validator) : Settings where
  palette := config.palette.orStandard
  envFile := config.style.envFile
  pythonMarker := config.style.pythonMarker
  validator := validator
  disabled := config.checks.disabled

/-- The settings with which the checks of a run are chosen. What the shell says is not known yet. -/
def Config.registered (config : Config) (shell : Option String) : Settings :=
  config.settings (shell.map fun _ _ => .ok .valid)

namespace Inspection

variable (host : Host) (config : Config) (shell : Option String) (c : Candidate)

/-- The shell that reads the candidate, if one does. -/
def reader? : Option String :=
  if ((config.registered shell).checksFor c.extension).contains .shellSyntax then shell else none

def askShell (shell : String) : Job (Except IoError Validation) := do
  let answer ← .once do
    Traced.tell [.called shell ["-n", c.path]]
    Shell.validate host.programs shell c.path
  .once (Traced.say (Shell.validationLog c.path answer))
  return answer

/-- The validator's answer about the candidate, if it is asked. -/
def ask : Job (Option (Except IoError Validation)) :=
  match reader? config shell c with
  | some shell => some <$> askShell host c shell
  | none => return none

/-- The result on a script that is checked. -/
def checked (text : List Char) : Job FileResult := do
  let mode ← .once do return (← get).mode? host.cwd c.path
  let answer ← ask host config shell c
  let settings := config.settings (answer.map fun answer _ => answer)
  let script : Script := { path := c.path, extension := c.extension, text, mode }
  let findings := settings.findings script
  .once (Traced.say [{ level := .debug, message := "file analyzed"
                       fields := [("path", c.path), ("findings", decimalText findings.length)] }])
  return { path := c.path, findings }

end Inspection

def inspect (host : Host) (config : Config) (shell : Option String) (c : Candidate) :
    Job FileResult := do
  match ← .once do return c.text (← get) host.cwd with
  | .error message =>
    .once (Traced.say [{ level := .debug, message := "file unreadable"
                         fields := [("path", c.path), ("message", message)] }])
    return { path := c.path, findings := [{ check := unreadable, severity := .critical, message }] }
  | .ok text =>
    if isIgnored text then
      .once (Traced.say [{ level := .debug, message := "ignore marker present, skipping"
                           fields := [("path", c.path)] }])
      return { path := c.path, ignored := true }
    Inspection.checked host config shell c text

end ScriptLint
