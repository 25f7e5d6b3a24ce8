import ScriptLint.Inspection

/-!
Checking: configuration, filter, shell, candidates, analysis and report, in this order. The first
step that fails ends the run.
-/

namespace ScriptLint

def CheckRequest.filter (c : CheckRequest) (host : Host) (config : Config) :
    Except Failure Filter :=
  buildFilter (c.types.getD config.scan.extensions) (config.scan.exclude ++ c.exclude)
    host.uncompilable

/-- The run may meet shell scripts: they are among its types, or the path is the one of a script. -/
def maySeeShell (filter : Filter) (path : String) : Bool :=
  filter.extensions.contains "sh" || Path.extension? path == some "sh"

def chosenShell? (config : Config) (c : CheckRequest) (filter : Filter) : Option String :=
  if config.syntaxCheck.enabled && !c.noSyntax && maySeeShell filter c.path then
    some (c.shell.getD config.syntaxCheck.shell)
  else none

def tryShell (programs : Programs) (shell : Option String) : Action Unit :=
  match shell with
  | some shell => Shell.probe programs shell
  | none => pure ()

/-- Makes sure that the shell can be run. -/
def readyShell (programs : Programs) (shell : Option String) : Course Unit := do
  Traced.tell (shell.toList.map fun shell => .called shell ["--version"])
  tryShell programs shell
  Traced.say (shell.toList.map fun shell =>
    { level := .debug, message := "syntax validator ready", fields := [("shell", shell)] })

def inspectAll (host : Host) (config : Config) (shell : Option String) (jobs : Option Nat)
    (cs : List Candidate) : Traced (List FileResult) :=
  work (jobs.getD host.workers) host.turns (cs.map (inspect host config shell))

/-- What is logged when the analysis begins. -/
def startLog (config : Config) (shell : Option String) (cs : List Candidate) : LogEntry where
  level := .info
  message := "starting analysis"
  fields := [("files", decimalText cs.length),
    ("checks", decimalText (config.registered shell).checks.length)]

def endLog (summary : Summary) : LogEntry where
  level := .info
  message := "analysis finished"
  fields := [("total", decimalText summary.totalFiles), ("passed", decimalText summary.passedFiles),
    ("failed", decimalText summary.failedFiles), ("warnings", decimalText summary.totalWarnings)]

def CheckRequest.conclude (c : CheckRequest) (host : Host) (r : Request)
    (results : List FileResult) :
    Action Outlet := do
  let summary := Summary.ofResults results
  let report := Report.render c.format (host.reportStyle r) results summary
  match c.output with
  | some path =>
    writeFile host.cwd path report
    return { exitCode := summary.exitCode }
  | none => return { exitCode := summary.exitCode, stdout := printed r report }

/-- What is left of a run that has settled its filter and its shell. -/
def CheckRequest.proceed (c : CheckRequest) (host : Host) (r : Request) (config : Config)
    (filter : Filter) (shell : Option String) : Course Outlet := do
  let candidates ← host.search filter (c.recursive || config.scan.recursive) c.path
  Traced.say [startLog config shell candidates]
  let results ← inspectAll host config shell c.jobs candidates
  Traced.say [endLog (Summary.ofResults results)]
  c.conclude host r results

def runCheck (host : Host) (r : Request) (c : CheckRequest) : Course Outlet := do
  let config ← host.configure r
  let filter ← ofExcept (c.filter host config)
  let shell := chosenShell? config c filter
  readyShell host.programs shell
  c.proceed host r config filter shell

end ScriptLint
