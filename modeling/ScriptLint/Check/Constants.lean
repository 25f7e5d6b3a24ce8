import ScriptLint.Check.Basic
import ScriptLint.Script
import ScriptLint.Shell.Assignment

/-!
The check of constants: upper-case variables assigned at the start of a line, unless some line makes
an upper-case variable readonly.
-/

namespace ScriptLint

/-- The constant that a line makes readonly, blanks at its ends aside. -/
def readonlyConstant? (line : Line) : Option (List Char) :=
  (Shell.afterReadonly? (trim line)).bind fun s => Shell.beforeEquals? (Shell.constantName? s)

/-- The constant that a line assigns to without indentation. -/
def assignedConstant? (line : Line) : Option (List Char) :=
  Shell.beforeEquals? (Shell.constantName? line)

def constantFindings (script : Script) : List Finding :=
  if script.lines.any fun line => (readonlyConstant? line).isSome then []
  else
    let assigned := script.numberedLines.findSome? fun (n, line) =>
      (assignedConstant? line).map fun name => (n, name)
    match assigned with
    | some (n, name) =>
      let message := "uppercase variable '" ++ String.ofList name ++ "' assigned without 'readonly'"
      [Check.readonlyConstants.warn message (some n)]
    | none => []

end ScriptLint
