import ScriptLint.Path

/-!
Candidates: the files that a run looks at.
-/

namespace ScriptLint

structure Candidate where
  path : String
  extension : String
  deriving DecidableEq, Repr

/-- The candidate for the file at a path; a file without an extension has the empty one. -/
def Candidate.ofPath (path : String) : Candidate :=
  ⟨path, Path.extensionOrEmpty path⟩

end ScriptLint
