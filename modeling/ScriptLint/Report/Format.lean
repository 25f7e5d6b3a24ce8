import ScriptLint.Report.Json
import ScriptLint.Report.Text

/-!
The formats of reports on checks.
-/

namespace ScriptLint

inductive ReportFormat where
  | text
  | json
  deriving DecidableEq, Repr

namespace ReportFormat

/-- The format with a name, in letters of either case. -/
def named? (name : String) : Option ReportFormat :=
  let lower := name.toList.map Char.toLower
  if lower = "text".toList then some .text
  else if lower = "json".toList then some .json
  else none

def unknownMessage (name : String) : String :=
  "Unknown output format: " ++ name

end ReportFormat

/-- The report in a format. -/
def Report.render (format : ReportFormat) (style : ReportStyle) (results : List FileResult)
    (summary : Summary) : String :=
  match format with
  | .text => Report.text style results summary
  | .json => Report.json style.root results summary

end ScriptLint
