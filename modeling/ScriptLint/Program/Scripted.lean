import ScriptLint.FileTree.Edit
import ScriptLint.Program.Basic
import ScriptLint.Text.Search

/-!
Scripted programs: each acts by rules on the text of its arguments, and stands for an external
program of which no more is known.
-/

namespace ScriptLint

/-- What a scripted program does when the text of its arguments holds `pattern`. -/
structure Reaction where
  pattern : String
  output : ProgramOutput
  /-- Bytes for the end of the file that the last argument names. -/
  appended : ByteArray := .empty

structure ScriptedProgram where
  name : String
  reactions : List Reaction
  executable : Bool := true

namespace ScriptedProgram

/-- The first reaction that the arguments call for. Blanks stand between them and at both ends. -/
def reaction? (p : ScriptedProgram) (args : List String) : Option Reaction :=
  let text := " " ++ String.intercalate " " args ++ " "
  p.reactions.find? fun r => occurs r.pattern.toList text.toList

def append (t : FileTree) (cwd : Location) (path : String) (bytes : ByteArray) : FileTree :=
  let old := match t.read cwd path with
    | .ok old => old
    | .error _ => .empty
  match t.write cwd path (old ++ bytes) with
  | .ok t => t
  | .error _ => t

def run (p : ScriptedProgram) (cwd : Location) (args : List String) :
    StateM FileTree ProgramOutput := do
  match p.reaction? args with
  | none => return { status := .code 0 }
  | some r =>
    if !r.appended.isEmpty then
      modify fun t => append t cwd (args.getLast?.getD "") r.appended
    return r.output

/-- A host with these programs and no others. -/
def programs (ps : List ScriptedProgram) (cwd : Location) : Programs := fun program args =>
  match ps.find? (·.name == program) with
  | none => pure (.error .notFound)
  | some p => if p.executable then .ok <$> p.run cwd args else pure (.error .permissionDenied)

end ScriptedProgram

end ScriptLint
