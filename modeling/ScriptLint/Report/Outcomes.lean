import ScriptLint.Formatting.Outcome
import ScriptLint.Report.Text

/-!
The report on formatting: a line for each file whose outcome is worth one, and a summary line.
-/

namespace ScriptLint

def Outcome.label : Outcome → Label
  | unchanged => ⟨"✓", "UNCHANGED", .green⟩
  | formatted => ⟨"✎", "FORMATTED", .cyan⟩
  | needsFormat => ⟨"⚠", "NEEDS FORMAT", .yellow⟩
  | failed _ => ⟨"✗", "FAILED", .red⟩

namespace Report

/-- The lines for a file. An unchanged file shows only in verbose reports. -/
def outcome (style : ReportStyle) (path : String) (o : Outcome) : String :=
  let line := statusLine style path o.label
  match o with
  | .unchanged => if style.verbose = 0 then "" else line
  | .failed reason => line ++ "   " ++ reason ++ "\n"
  | .formatted | .needsFormat => line

def outcomeSummary (style : ReportStyle) (checkOnly : Bool) (outcomes : List Outcome) : String :=
  let count (p : Outcome → Bool) := decimalText (outcomes.countP p)
  let changed :=
    if checkOnly then count (· == .needsFormat) ++ " need formatting"
    else count (· == .formatted) ++ " formatted"
  let failed := count fun o => o matches .failed _
  "Summary: " ++ decimalText outcomes.length ++ " files, " ++ count (· == .unchanged) ++
    " unchanged, " ++ changed ++ ", " ++ style.paint .red failed ++ " failed\n"

def outcomes (style : ReportStyle) (checkOnly : Bool) (os : List (String × Outcome)) : String :=
  String.join (os.map fun (path, o) => outcome style path o) ++
    outcomeSummary style checkOnly (os.map (·.2))

end Report

end ScriptLint
