import ScriptLint.Check.Basic
import ScriptLint.Script
import ScriptLint.Shell.SetOption

/-!
Checks of the `set` options: one line of the script has to set the option.
-/

namespace ScriptLint

def failFastFindings (script : Script) : List Finding :=
  if script.lines.any Shell.setsErrexit then []
  else [Check.failFast.warn "missing 'set -e' or 'set -o errexit'"]

def pipefailFindings (script : Script) : List Finding :=
  if script.lines.any Shell.setsPipefail then []
  else [Check.pipefail.warn "missing 'set -o pipefail'"]

end ScriptLint
