import ScriptLint.Check.Basic
import ScriptLint.Script
import ScriptLint.Text.Blank

/-!
Checks of the first two lines: the interpreter line and the description under it.
-/

namespace ScriptLint

/-- The first line starts with `#!`, and names the interpreter that the extension calls for. -/
def shebangFindings (script : Script) : List Finding :=
  let first := script.firstLine
  if (stripStart "#!".toList first).isNone then
    [Check.shebang.fail "missing shebang" (some 1)]
  else match Check.interpreter? script.extension with
    | some interpreter =>
      if occurs interpreter.toList first then []
      else
        let shown := String.ofList (trim first)
        [Check.shebang.warn ("shebang might not be " ++ interpreter ++ ": " ++ shown) (some 1)]
    | none => []

/-- A second line is a comment. -/
def descriptionFindings (script : Script) : List Finding :=
  match script.lines with
  | _ :: second :: _ =>
    if second.head? == some '#' then []
    else [Check.descriptionHeader.warn "missing description comment on line 2" (some 2)]
  | _ => []

end ScriptLint
