import ScriptLint.Failure
import ScriptLint.FileTree.Basic

/-!
Actions: the steps of a command.
-/

namespace ScriptLint

/-- A step that may change the files, and may fail. Changes made before a failure stay. -/
abbrev Action := ExceptT Failure (StateM FileTree)

/-- A step that changes nothing. -/
def ofExcept {α : Type} (x : Except Failure α) : Action α :=
  ExceptT.mk (pure x)

/-- A step whose errors have to be told to the user in their own way. -/
def orFail {ε α : Type} (x : StateM FileTree (Except ε α)) (failure : ε → Failure) : Action α :=
  ExceptT.mk do
    match ← x with
    | .ok a => return .ok a
    | .error e => return .error (failure e)

end ScriptLint
