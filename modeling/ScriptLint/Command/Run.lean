import ScriptLint.Command.Check
import ScriptLint.Command.Format
import ScriptLint.Command.Init
import ScriptLint.CommandLine.Parser
import ScriptLint.Report.Checks
import ScriptLint.Report.Failure

/-!
Running a command line: the command that it asks for, and what the user sees of it.
-/

namespace ScriptLint

/-- What a run leaves behind, besides the files. The standard error has the lines of the log first,
as far as they are shown, and the report on a failure after them. -/
structure RunResult where
  exitCode : ExitCode
  stdout : String
  log : List LogEntry := []
  /-- The standard error without the log. -/
  stderr : String
  deriving DecidableEq, Repr

namespace Host

def perform (host : Host) (r : Request) : Course Outlet :=
  match r.command with
  | .check c => runCheck host r c
  | .fmt f => runFormat host r f
  | .init i => runInit host r i
  | .checks => return { exitCode := .success, stdout := printed r Report.checkTable }

/-- The lines of the log that the user sees. -/
def shownLog (host : Host) (r : Request) (entries : List LogEntry) : List LogEntry :=
  entries.filter fun e =>
    match host.logFilter with
    | some shown => shown e
    | none => (LogLevel.ofVerbosity r.verbose r.quiet).shows e.level

def shown (host : Host) (r : Request) : Except Failure Outlet → RunResult
  | .ok outlet => { exitCode := outlet.exitCode, stdout := outlet.stdout, stderr := "" }
  | .error f =>
    let colored := r.color.resolve host.stderrIsTerminal host.noColor
    { exitCode := f.exitCode, stdout := "", stderr := Report.failure colored f }

/-- Runs a request. A failure is reported even by a quiet run. -/
def run (host : Host) (r : Request) : StateM FileTree RunResult := fun t =>
  let ((ended, events), t) := (host.perform r).run t
  ({ host.shown r ended with log := host.shownLog r (events.filterMap Event.entry?) }, t)

def runArguments (host : Host) (args : List String) :
    Except CommandLine.Refusal (StateM FileTree RunResult) :=
  (CommandLine.parse args).map host.run

end Host

end ScriptLint
