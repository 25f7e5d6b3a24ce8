import ScriptLint.Command.Host
import ScriptLint.Program.Formatter
import ScriptLint.Report.Outcomes

/-!
Formatting: configuration, formatter, filter, candidates, formatting and report, in this order.
-/

namespace ScriptLint

def chosenFormatter (config : Config) (f : FmtRequest) : FormatterProgram where
  program := f.program.getD config.format.program
  options := config.format.options

/-- Makes sure that the formatter can be run. -/
def readyFormatter (programs : Programs) (formatter : FormatterProgram) : Course Unit := do
  Traced.tell [.called formatter.program ["--version"]]
  let version ← formatter.version programs
  Traced.say [{ level := .info, message := "using shfmt", fields := [("version", version)] }]

def formatPaths (host : Host) (formatter : FormatterProgram) (checkOnly : Bool)
    (paths : List String) :
    Traced (List (String × Outcome)) := do
  return paths.zip
    (← work host.workers host.turns (paths.map (formatter.format host.programs checkOnly)))

def FmtRequest.filter (f : FmtRequest) (host : Host) (config : Config) : Except Failure Filter :=
  buildFilter (f.types.getD config.format.extensions) (config.scan.exclude ++ f.exclude)
    host.uncompilable

/-- What is left of a run that has settled its formatter and its filter. -/
def FmtRequest.proceed (f : FmtRequest) (host : Host) (r : Request) (config : Config)
    (filter : Filter) :
    Course Outlet := do
  let candidates ← host.search filter (f.recursive || config.scan.recursive) f.path
  let outcomes ← formatPaths host (chosenFormatter config f) f.checkOnly (candidates.map (·.path))
  let report := Report.outcomes (host.reportStyle r) f.checkOnly outcomes
  return { exitCode := Outcome.exitCode f.checkOnly outcomes, stdout := printed r report }

def runFormat (host : Host) (r : Request) (f : FmtRequest) : Course Outlet := do
  let config ← host.configure r
  readyFormatter host.programs (chosenFormatter config f)
  let filter ← ofExcept (f.filter host config)
  f.proceed host r config filter

end ScriptLint
