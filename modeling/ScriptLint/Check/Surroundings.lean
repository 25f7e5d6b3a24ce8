import ScriptLint.Check.Settings
import ScriptLint.Path
import ScriptLint.Script

/-!
Checks of a script's surroundings: its permission bits, the environment that it loads, and what a
syntax validator says about it.
-/

namespace ScriptLint

/-- The permission bits that make a file executable for its owner, its group or others. -/
def executeBits : Nat := 0o111

/-- A script whose mode is known is executable for somebody. -/
def executableFindings (script : Script) : List Finding :=
  match script.mode with
  | some mode =>
    if mode &&& executeBits = 0 then
      let shown := ((Path.fileName? script.path).map String.ofList).getD script.path
      [Check.executable.warn ("script is not executable (chmod +x " ++ shown ++ ")")]
    else []
  | none => []

/-- The text that a script has to mention, and how the finding names it. -/
def envRequirement? (settings : Settings) (extension : String) : Option (String × String) :=
  if extension = "py" then some (settings.pythonMarker, settings.pythonMarker ++ " function")
  else if extension = "sh" then some (settings.envFile, settings.envFile)
  else none

def envFindings (settings : Settings) (script : Script) : List Finding :=
  match envRequirement? settings script.extension with
  | some (needed, shown) =>
    if occurs needed.toList script.text then []
    else [Check.envIntegration.warn ("missing .env integration (" ++ shown ++ ")")]
  | none => []

/-- What the answer of the validator means for the file. -/
def validationFindings : Except IoError Validation → List Finding
  | .ok .valid => []
  | .ok (.invalid diagnostic) =>
    if diagnostic = "" then [Check.shellSyntax.fail "syntax error detected"]
    else [Check.shellSyntax.fail ("syntax error: " ++ diagnostic)]
  | .error e => [Check.shellSyntax.fail ("syntax validator failed: " ++ e.message)]

/-- Without a validator there is nothing to report. -/
def syntaxFindings (settings : Settings) (script : Script) : List Finding :=
  match settings.validator with
  | some validate => validationFindings (validate script.path)
  | none => []

end ScriptLint
