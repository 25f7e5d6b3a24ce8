import ScriptLint.CommandLine.Request
import ScriptLint.Config.Locate
import ScriptLint.Course
import ScriptLint.FileTree.Edit
import ScriptLint.Program.Basic
import ScriptLint.Scan.Scan

/-!
What a command finds around itself, and the steps that several commands share.

The standard output always takes what is printed, a worker can always be started, and a program that
is run does all that it does in one step.
-/

namespace ScriptLint

/-- The surroundings of a run, apart from the files. -/
structure Host where
  /-- The current directory. -/
  cwd : Location := []
  programs : Programs := noPrograms
  /-- The directory of the user's own configuration, if there is one. -/
  userDir : Option String := none
  stdoutIsTerminal : Bool := false
  stderrIsTerminal : Bool := false
  /-- The user's environment asks for no colors. -/
  noColor : Bool := false
  /-- The lines of the log that the user's environment asks for, if it does. -/
  logFilter : Option (LogEntry → Bool) := none
  /-- How many workers there are if a run does not say. -/
  workers : Nat := 1
  /-- The order in which the system lets several workers take their steps. -/
  turns : List Nat := []
  /-- Why patterns cannot be compiled together, if they cannot. -/
  uncompilable : List Glob → Option String := fun _ => none

/-- What a command that does not fail leaves behind, besides the files. -/
structure Outlet where
  exitCode : ExitCode
  stdout : String := ""
  deriving DecidableEq, Repr

namespace Host

/-- The files of a tree as the places of configurations. -/
def configFiles (host : Host) (t : FileTree) : ConfigFiles where
  read := t.readText host.cwd
  isFile := t.isFile host.cwd
  projectDir := some host.cwd.toPath
  userDir := host.userDir

/-- The configuration file that a request asks for, or the one that is found. -/
def findConfig (host : Host) (t : FileTree) (r : Request) : Except Failure LoadedConfig :=
  match r.config with
  | some path => Config.loadFrom (host.configFiles t) path
  | none => Config.load (host.configFiles t)

def loadConfig (host : Host) (t : FileTree) (r : Request) : Except Failure Config :=
  if r.noConfig then .ok {} else (host.findConfig t r).map (·.config)

def configLog (host : Host) (t : FileTree) (r : Request) : List LogEntry :=
  if r.noConfig then []
  else match host.findConfig t r with
    | .error _ => []
    | .ok { source := none, .. } =>
      [{ level := .debug, message := "no configuration file found, using defaults" }]
    | .ok { source := some path, .. } =>
      [{ level := .debug, message := "configuration loaded", fields := [("path", path)] },
        { level := .info, message := "using configuration file", fields := [("path", path)] }]

def configure (host : Host) (r : Request) : Course Config := do
  let t ← get
  Traced.say (host.configLog t r)
  ofExcept (host.loadConfig t r)

def reportStyle (host : Host) (r : Request) : ReportStyle where
  colored := r.color.resolve host.stdoutIsTerminal host.noColor
  verbose := r.verbose
  root := some host.cwd.toPath

end Host

def buildFilter (types excludes : List String)
    (uncompilable : List Glob → Option String := fun _ => none) :
    Except Failure Filter :=
  match Filter.ofPatterns types excludes uncompilable with
  | .ok filter => .ok filter
  | .error e => .error (.invalidPattern e)

/-- The candidates of a run; there has to be one. -/
def findCandidates (t : FileTree) (cwd : Location) (filter : Filter) (recursive : Bool)
    (path : String) : Except Failure (List Candidate) := do
  let candidates ← scan t cwd filter recursive path
  if candidates.isEmpty then .error (.noFilesMatched filter.extensions) else return candidates

def scanLog (t : FileTree) (cwd : Location) (filter : Filter) (recursive : Bool) (path : String) :
    List LogEntry :=
  match t.locate cwd path, scan t cwd filter recursive path with
  | .ok l, .ok candidates =>
    if t.isDirectory cwd path then
      [{ level := .debug, message := "scanned directory"
         fields := [("root", l.toPath), ("recursive", toString recursive),
           ("count", decimalText candidates.length)] }]
    else [{ level := .debug, message := "explicit file candidate", fields := [("path", l.toPath)] }]
  | _, _ => []

def Host.search (host : Host) (filter : Filter) (recursive : Bool) (path : String) :
    Course (List Candidate) := do
  let t ← get
  Traced.say (scanLog t host.cwd filter recursive path)
  ofExcept (findCandidates t host.cwd filter recursive path)

/-- What a quiet run prints of a text. -/
def printed (r : Request) (text : String) : String :=
  if r.quiet then "" else text

/-- Writes a text to a file, and makes the directories above it. -/
def writeFile (cwd : Location) (path text : String) : Action Unit := do
  match Path.parent? path with
  | none | some "" => pure ()
  | some above =>
    let (t, made) := (← get).ensureAll cwd above
    set t
    match made with
    | .ok () => pure ()
    | .error e => throw (.io e)
  match (← get).write cwd path text.toUTF8 with
  | .ok t => set t
  | .error e => throw (.io e)

end ScriptLint
