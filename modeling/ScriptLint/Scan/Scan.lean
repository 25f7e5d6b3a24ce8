import ScriptLint.Failure
import ScriptLint.FileTree.Walk
import ScriptLint.Scan.Candidate
import ScriptLint.Scan.Filter

/-!
Scanning: from the path that a user gives to the candidates, in the order of their paths.
-/

namespace ScriptLint

/-- Paths in the order of their texts. -/
def sortPaths (paths : List String) : List String :=
  paths.mergeSort fun a b => decide (a ≤ b)

/-- The candidates in the directory at a location, each once. -/
def scanDirectory (t : FileTree) (filter : Filter) (recursive : Bool) (l : Location) :
    List Candidate :=
  (sortPaths (keepFirst ((t.filesIn recursive l).filter filter.includes))).map Candidate.ofPath

/-- The candidates that a path stands for. A path to a file stands for that file, whatever the
filter says. The location to which the path leads has to have a path of its own. -/
def scan (t : FileTree) (cwd : Location) (filter : Filter) (recursive : Bool) (base : String) :
    Except Failure (List Candidate) :=
  match t.locate cwd base with
  | .error _ => .error (.pathNotFound base)
  | .ok l =>
    if isTooLong l.toPath then .error (.fileRead base .nameTooLong)
    else match t.get? l with
      | some .directory => .ok (scanDirectory t filter recursive l)
      | _ => .ok [.ofPath l.toPath]

end ScriptLint
