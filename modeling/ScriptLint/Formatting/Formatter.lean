import ScriptLint.Formatting.Outcome
import ScriptLint.IoError

/-!
Formatting files: a file is rewritten only if its formatter says that it needs to be, and never
where files are only checked.
-/

namespace ScriptLint

/-- A formatter that works on a state of type `σ`, such as the files. -/
structure Formatter (σ : Type) where
  /-- Whether formatting would change the file at a path. -/
  needsFormat : String → StateM σ (Except IoError Bool)
  /-- Rewrites the file at a path. -/
  write : String → StateM σ (Except IoError Unit)

namespace Formatter

/-- Formats a file, or only checks it, with the two calls of its formatter. -/
def formatWith {m : Type → Type} [Monad m] (checkOnly : Bool)
    (needsFormat : m (Except IoError Bool)) (write : m (Except IoError Unit)) : m Outcome := do
  match ← needsFormat with
  | .ok false => return .unchanged
  | .ok true =>
    if checkOnly then return .needsFormat
    match ← write with
    | .ok () => return .formatted
    | .error e => return .failed e.message
  | .error e => return .failed e.message

def format {σ : Type} (f : Formatter σ) (checkOnly : Bool) (path : String) : StateM σ Outcome :=
  formatWith checkOnly (f.needsFormat path) (f.write path)

def formatAll {σ : Type} (f : Formatter σ) (checkOnly : Bool) (paths : List String) :
    StateM σ (List (String × Outcome)) :=
  paths.mapM fun path => do return (path, ← f.format checkOnly path)

end Formatter

end ScriptLint
