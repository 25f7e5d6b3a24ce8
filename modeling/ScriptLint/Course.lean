import ScriptLint.Action
import ScriptLint.Trace

/-!
Courses: the steps of a command, with their trace.
-/

namespace ScriptLint

/-- The course of a command. What was done before a failure stays, in the files and in the trace. -/
abbrev Course := ExceptT Failure Traced

instance : MonadLift Action Course where
  monadLift x := ExceptT.mk (Traced.silent x.run)

end ScriptLint
