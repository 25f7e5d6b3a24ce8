import ScriptLint.Check.Colors
import ScriptLint.Check.Constants
import ScriptLint.Check.FirstLines
import ScriptLint.Check.Functions
import ScriptLint.Check.Options
import ScriptLint.Check.Surroundings

/-!
Running checks: the findings of one check on a script, and of all checks that apply.
-/

namespace ScriptLint

/-- The findings of a check, whether or not it applies to the script's extension. -/
def Check.evaluate (settings : Settings) (script : Script) : Check → List Finding
  | .shellSyntax => syntaxFindings settings script
  | .shebang => shebangFindings script
  | .failFast => failFastFindings script
  | .pipefail => pipefailFindings script
  | .executable => executableFindings script
  | .palette => paletteFindings settings.palette script
  | .loggingUsage => loggingFindings settings.palette script
  | .readonlyConstants => constantFindings script
  | .localVariables => localFindings script
  | .descriptionHeader => descriptionFindings script
  | .envIntegration => envFindings settings script

/-- The findings of all checks that run on the script, check by check. -/
def Settings.findings (settings : Settings) (script : Script) : List Finding :=
  (settings.checksFor script.extension).flatMap (Check.evaluate settings script)

end ScriptLint
