import ScriptLint.Action
import ScriptLint.Formatting.Formatter
import ScriptLint.Program.Basic
import ScriptLint.Text.Blank
import ScriptLint.Workers

/-!
A program as a formatter: with `-d` it prints the changes that it would make, with `-w` it makes
them.
-/

namespace ScriptLint

structure FormatterProgram where
  program : String
  options : List String

namespace FormatterProgram

/-- The error stream as a message; without one, the status is told. -/
def complaint (output : ProgramOutput) : IoError :=
  let text := trim (Utf8.decodeLossy output.stderr)
  if text.isEmpty then ⟨.other, "formatter exited with " ++ output.status.description⟩
  else ⟨.other, String.ofList text⟩

/-- The version that the program tells, which shows that it can be run. -/
def version (f : FormatterProgram) (programs : Programs) : Action String := do
  let output ← orFail (programs f.program ["--version"]) fun _ => .formatterUnavailable f.program
  return String.ofList (trim (Utf8.decodeLossy output.stdout))

def run (f : FormatterProgram) (programs : Programs) (mode path : String) :
    StateM FileTree (Except IoError ProgramOutput) :=
  programs f.program (f.options ++ [mode, path])

/-- What the output of a run that shows changes says. A run that fails and shows none went wrong. -/
def needsFormat (output : ProgramOutput) : Except IoError Bool :=
  if output.status.isSuccess then .ok false
  else if output.stdout.isEmpty then .error (complaint output)
  else .ok true

/-- What the output of a run that makes changes says. -/
def written (output : ProgramOutput) : Except IoError Unit :=
  if output.status.isSuccess then .ok () else .error (complaint output)

def toFormatter (f : FormatterProgram) (programs : Programs) : Formatter FileTree where
  needsFormat path := do return (← f.run programs "-d" path).bind needsFormat
  write path := do return (← f.run programs "-w" path).bind written

/-- A run of the program, as steps of a worker. -/
def attempt {α : Type} (f : FormatterProgram) (mode path : String) (x : StateM FileTree α) :
    Job α := do
  .once (Traced.say [{ level := .debug, message := "running formatter"
                       fields := [("program", f.program), ("mode", mode), ("path", path)] }])
  .once do
    Traced.tell [.called f.program (f.options ++ [mode, path])]
    x

def format (f : FormatterProgram) (programs : Programs) (checkOnly : Bool) (path : String) :
    Job Outcome :=
  Formatter.formatWith checkOnly (f.attempt "-d" path ((f.toFormatter programs).needsFormat path))
    (f.attempt "-w" path ((f.toFormatter programs).write path))

end FormatterProgram

end ScriptLint
