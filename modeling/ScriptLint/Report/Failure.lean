import ScriptLint.Failure
import ScriptLint.Report.Style

/-!
The report on a failure: its headline and message, then what is known about the cause, then a hint.
-/

namespace ScriptLint.Report

def detailLine (colored : Bool) : Option String → String
  | some text => "  " ++ paint colored [.dim] ("× " ++ text) ++ "\n"
  | none => ""

def hintLine (colored : Bool) : Option String → String
  | some text => "  " ++ paint colored [.cyan] "help:" ++ " " ++ text ++ "\n"
  | none => ""

/-- The report on a problem, with what there is of a detail and of a hint. -/
def problem (colored : Bool) (title message : String) (detail hint : Option String) : String :=
  paint colored [.bold, .red] ("✖ " ++ title ++ ":") ++ " " ++ message ++ "\n" ++
    detailLine colored detail ++ hintLine colored hint

def failure (colored : Bool) (f : Failure) : String :=
  problem colored f.title f.message f.detail f.suggestion

end ScriptLint.Report
