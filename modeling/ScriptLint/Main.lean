import ScriptLint.Command.Run

/-!
The program. It takes in the part of the disk that a request is about, runs the request on that file
tree, and writes back what has changed. It starts no other program.
-/

namespace ScriptLint.Disk

/-- Permission bits of the files taken in. The disk does not tell them here, so no file counts as
one that cannot be run. -/
def fileMode : Nat := 0o755

/-- What the disk has at a location, a link not followed. -/
def typeAt? (l : Location) : IO (Option IO.FS.FileType) := do
  match l.getLast? with
  | none => return some .dir
  | some name =>
    let entry : IO.FS.DirEntry :=
      { root := Location.toPath l.dropLast, fileName := String.ofList name }
    try return some (← entry.path.symlinkMetadata).type
    catch _ => return none

/-- The location of a path without the links on its way. -/
def realLocation? (path : String) : IO (Option Location) := do
  try
    let real ← IO.FS.realPath path
    return some ((Path.splitSlash real.toString.toList).filter fun name => !Path.isFiller name)
  catch _ => return none

/-- The tree with a location and the locations above it as directories. -/
def withDirectories (t : FileTree) (l : Location) : FileTree :=
  (List.range l.length).foldl (fun t n => t.set (l.take (n + 1)) .directory) t

/-- Takes in the entry at a location with no links above it, and `levels` levels of what is below
it. Links are followed, but not to a directory that is being taken in. -/
def take (levels : Nat) (inside : List Location) (l : Location) (t : FileTree) : IO FileTree := do
  match ← typeAt? l with
  | some .file =>
    try return t.set l (.file (← IO.FS.readBinFile l.toPath) fileMode)
    catch _ => return t
  | some .dir =>
    let t := withDirectories t l
    match levels with
    | 0 => return t
    | levels + 1 =>
      let entries ← (← IO.FS.realPath l.toPath).readDir
      entries.foldlM (fun t entry => take levels (l :: inside) (l ++ [entry.fileName.toList]) t) t
  | some .symlink =>
    match ← realLocation? l.toPath with
    | none => return t
    | some target =>
      let t := t.set l (.link target.toPath)
      match levels with
      | 0 => return t
      | levels + 1 =>
        if inside.contains target then return t
        else take levels inside target (withDirectories t target.dropLast)
  | _ => return t

/-- Takes in what lies on the way of a path from a directory, and `levels` levels of what is below
its end. -/
def takeWay (levels : Nat) (here : Location) (names : List (List Char)) (t : FileTree) :
    IO FileTree := do
  match names with
  | [] => take levels [] here t
  | name :: rest =>
    if Path.isFiller name then takeWay levels here rest t
    else if name = ['.', '.'] then takeWay levels here.dropLast rest t
    else
      let next := here ++ [name]
      let t ← take 1 [] next t
      match ← realLocation? next.toPath with
      | some real => takeWay levels real rest (withDirectories t real.dropLast)
      | none => return t

/-- Takes in what a path leads to from a directory. -/
def takePath (cwd : Location) (levels : Nat) (path : String) (t : FileTree) : IO FileTree :=
  takeWay levels (if Path.isAbsolute path then [] else cwd) (Path.splitSlash path.toList) t

/-- Writes what a new tree has and an old one does not have. -/
def writeChanges (old new : FileTree) : IO Unit := do
  for (l, e) in new.entries do
    if old.get? l ≠ some e then
      match e with
      | .directory => IO.FS.createDirAll l.toPath
      | .file bytes _ => IO.FS.writeBinFile l.toPath bytes
      | .link _ => pure ()

end ScriptLint.Disk

namespace ScriptLint

def userConfigDir : IO (Option String) := do
  let base ← match ← IO.getEnv "XDG_CONFIG_HOME" with
    | some dir => if Path.isAbsolute dir then pure (some dir) else pure none
    | none => pure none
  let home ← IO.getEnv "HOME"
  let base := base.or (home.map (Path.join · ".config"))
  return base.map (Path.join · "shell-guard")

/-- The host as this process finds it. -/
def currentHost : IO Host := do
  let cwd := (← Disk.realLocation? ".").getD []
  return {
    cwd
    userDir := ← userConfigDir
    stdoutIsTerminal := ← (← IO.getStdout).isTty
    stderrIsTerminal := ← (← IO.getStderr).isTty
    noColor := (← IO.getEnv "NO_COLOR").isSome
  }

def runOnDisk (host : Host) (r : Request) : IO RunResult := do
  let places := r.config.toList ++ Config.candidates (host.configFiles {})
  let start := Disk.withDirectories {} host.cwd
  let t ← places.foldlM (fun t path => Disk.takePath host.cwd 0 path t) start
  let always := match host.loadConfig t r with
    | .ok config => config.scan.recursive
    | .error _ => false
  let levels (recursive : Bool) := if recursive || always then maxPathLength else 2
  let t ← match r.command with
    | .check c =>
      let t ← Disk.takePath host.cwd (levels c.recursive) c.path t
      c.output.toList.foldlM (fun t path => Disk.takePath host.cwd 0 path t) t
    | .fmt f => Disk.takePath host.cwd (levels f.recursive) f.path t
    | .init i => Disk.takePath host.cwd 0 i.output t
    | .checks => pure t
  let (result, changed) := (host.run r).run t
  Disk.writeChanges t changed
  return result

end ScriptLint

open ScriptLint in
def main (args : List String) : IO UInt32 := do
  match CommandLine.parse args with
  | .error refusal =>
    if refusal.exitCode = .success then IO.println refusal.message else IO.eprintln refusal.message
    return refusal.exitCode.toNat.toUInt32
  | .ok r =>
    let result ← runOnDisk (← currentHost) r
    IO.print result.stdout
    for entry in result.log do
      IO.eprintln entry.text
    IO.eprint result.stderr
    return result.exitCode.toNat.toUInt32
