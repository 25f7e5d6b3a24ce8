import ScriptLint.Check.Basic
import ScriptLint.Script
import ScriptLint.Shell.Function

/-!
The check of function variables: a function that assigns variables declares some of them local.
-/

namespace ScriptLint

def localFindings (script : Script) : List Finding :=
  (Shell.leakingFunctions none script.numberedLines).map fun body =>
    Check.localVariables.warn
      ("function '" ++ String.ofList body.name ++
        "' assigns variables without declaring them local")
      (some body.declaredAt)

end ScriptLint
