import ScriptLint.Check.Evaluate
import ScriptLint.FileResult
import ScriptLint.FileTree.Resolve
import ScriptLint.Scan.Candidate

/-!
Analysis: from a candidate to its result. A file that cannot be read fails, and a file that opts out
passes without being checked.
-/

namespace ScriptLint

/-- The name that findings on unreadable files bear in the place of a check. -/
def unreadable : String := "unreadable"

/-- The text of a candidate, or why there is none. -/
def Candidate.text (t : FileTree) (cwd : Location) (c : Candidate) : Except String (List Char) :=
  match t.read cwd c.path with
  | .error e => .error ("cannot read file: " ++ e.message)
  | .ok bytes =>
    match Utf8.decode? bytes with
    | some text => .ok text.toList
    | none => .error "file is not valid UTF-8 text"

/-- The script that checks see. -/
def Candidate.script (t : FileTree) (cwd : Location) (c : Candidate) (text : List Char) :
    Script where
  path := c.path
  extension := c.extension
  text := text
  mode := t.mode? cwd c.path

def analyze (settings : Settings) (t : FileTree) (cwd : Location) (c : Candidate) : FileResult :=
  match c.text t cwd with
  | .error message =>
    { path := c.path, findings := [{ check := unreadable, severity := .critical, message }] }
  | .ok text =>
    if isIgnored text then { path := c.path, ignored := true }
    else { path := c.path, findings := settings.findings (c.script t cwd text) }

/-- The results of all candidates, in their order. -/
def analyzeAll (settings : Settings) (t : FileTree) (cwd : Location) (cs : List Candidate) :
    List FileResult :=
  cs.map (analyze settings t cwd)

end ScriptLint
