import ScriptLint.Json.Printer
import ScriptLint.Path
import ScriptLint.Summary

/-!
The report for programs: the summary, the verdict and all results as one JSON object.
-/

namespace ScriptLint.Report

def jsonFinding (f : Finding) : Json :=
  let line := match f.line with
    | some n => [("line", .number n)]
    | none => []
  .object ([
    ("check", .text f.check),
    ("severity", .text f.severity.name),
    ("message", .text f.message)] ++ line)

def jsonResult (root : Option String) (r : FileResult) : Json :=
  .object [
    ("path", .text (Path.display r.path root)),
    ("status", .text (if r.passed then "passed" else "failed")),
    ("ignored", .bool r.ignored),
    ("findings", .array (r.findings.map jsonFinding))]

def jsonSummary (s : Summary) : Json :=
  .object [
    ("total_files", .number s.totalFiles),
    ("passed_files", .number s.passedFiles),
    ("failed_files", .number s.failedFiles),
    ("total_warnings", .number s.totalWarnings)]

def jsonReport (root : Option String) (results : List FileResult) (summary : Summary) : Json :=
  .object [
    ("summary", jsonSummary summary),
    ("passed", .bool summary.passed),
    ("results", .array (results.map (jsonResult root)))]

def json (root : Option String) (results : List FileResult) (summary : Summary) : String :=
  (jsonReport root results summary).print

end ScriptLint.Report
