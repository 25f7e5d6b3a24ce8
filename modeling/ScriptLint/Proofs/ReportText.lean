import ScriptLint.Proofs.JsonReader
import ScriptLint.Proofs.Reports

/-!
The report for programs loses nothing: its text is a JSON text of one value only, and the summary,
the verdict, all results and all findings can be read off that value. Main statement: `read_json`.
-/

namespace ScriptLint

namespace Json

/-- The number that an object has for the key. -/
def numberAt? (key : String) (j : Json) : Option Nat :=
  match j.member? key with
  | some (.number n) => some n
  | _ => none

/-- The truth value that an object has for the key. -/
def boolAt? (key : String) (j : Json) : Option Bool :=
  match j.member? key with
  | some (.bool b) => some b
  | _ => none

/-- The elements of the array that an object has for the key, each read by `read`. -/
def listAt? {α : Type} (key : String) (read : Json → Option α) (j : Json) : Option (List α) :=
  match j.member? key with
  | some (.array elements) => elements.mapM read
  | _ => none

end Json

/-- The severity with a name. -/
def Severity.named? : String → Option Severity
  | "warning" => some .warning
  | "critical" => some .critical
  | _ => none

theorem Severity.named_name (severity : Severity) : named? severity.name = some severity := by
  cases severity <;> rfl

namespace Report

/-- What a report tells about a file. -/
structure Entry where
  path : String
  status : String
  ignored : Bool
  findings : List Finding
  deriving DecidableEq, Repr

/-- What a report tells. -/
structure Content where
  summary : Summary
  passed : Bool
  entries : List Entry
  deriving DecidableEq, Repr

/-- The line of a finding. A finding without a line has no such key. -/
def lineOf? (j : Json) : Option (Option Nat) :=
  match j.member? "line" with
  | none => some none
  | some (.number n) => some (some n)
  | some _ => none

def findingOf? (j : Json) : Option Finding := do
  let check ← j.textAt? "check"
  let severity ← Severity.named? (← j.textAt? "severity")
  let message ← j.textAt? "message"
  let line ← lineOf? j
  return { check, severity, message, line }

def entryOf? (j : Json) : Option Entry := do
  let path ← j.textAt? "path"
  let status ← j.textAt? "status"
  let ignored ← j.boolAt? "ignored"
  let findings ← j.listAt? "findings" findingOf?
  return { path, status, ignored, findings }

def summaryOf? (j : Json) : Option Summary := do
  let totalFiles ← j.numberAt? "total_files"
  let passedFiles ← j.numberAt? "passed_files"
  let failedFiles ← j.numberAt? "failed_files"
  let totalWarnings ← j.numberAt? "total_warnings"
  return { totalFiles, passedFiles, failedFiles, totalWarnings }

def contentOf? (j : Json) : Option Content := do
  let summary ← summaryOf? (← j.member? "summary")
  let passed ← j.boolAt? "passed"
  let entries ← j.listAt? "results" entryOf?
  return { summary, passed, entries }

/-- What a report tells about a result: the path is the one that is shown below the root. -/
def entry (root : Option String) (r : FileResult) : Entry where
  path := Path.display r.path root
  status := if r.passed then "passed" else "failed"
  ignored := r.ignored
  findings := r.findings

variable {root : Option String}

theorem mapM_map_eq_some {α β γ : Type} {f : α → β} {read : β → Option γ} {g : α → γ}
    (h : ∀ a, read (f a) = some (g a)) (as : List α) : (as.map f).mapM read = some (as.map g) := by
  induction as with
  | nil => rfl
  | cons a as ih => simp [h, ih]

theorem member_line_jsonFinding (f : Finding) :
    (jsonFinding f).member? "line" = f.line.map .number := by
  cases h : f.line with
  | none => simp [jsonFinding, Json.member?, h]
  | some n =>
    simp only [jsonFinding, Json.member?, h]
    rfl

theorem lineOf_jsonFinding (f : Finding) : lineOf? (jsonFinding f) = some f.line := by
  rw [lineOf?, member_line_jsonFinding]
  cases f.line with
  | none => rfl
  | some n => rfl

theorem findingOf_jsonFinding (f : Finding) : findingOf? (jsonFinding f) = some f := by
  have hc : (jsonFinding f).textAt? "check" = some f.check := rfl
  have hs : (jsonFinding f).textAt? "severity" = some f.severity.name := rfl
  have hm : (jsonFinding f).textAt? "message" = some f.message := rfl
  simp only [findingOf?, hc, hs, hm, Severity.named_name, lineOf_jsonFinding, bind,
    Option.bind, pure]

theorem entryOf_jsonResult (r : FileResult) :
    entryOf? (jsonResult root r) = some (entry root r) := by
  have hp : (jsonResult root r).textAt? "path" = some (Path.display r.path root) := rfl
  have hs : (jsonResult root r).textAt? "status" = some (if r.passed then "passed" else "failed") :=
    rfl
  have hi : (jsonResult root r).boolAt? "ignored" = some r.ignored := rfl
  have hf : (jsonResult root r).listAt? "findings" findingOf? = some r.findings := by
    have h := mapM_map_eq_some (g := id) findingOf_jsonFinding r.findings
    rw [List.map_id] at h
    exact h
  simp only [entryOf?, hp, hs, hi, hf, bind, Option.bind, pure, entry]

theorem contentOf_jsonReport (results : List FileResult) (summary : Summary) :
    contentOf? (jsonReport root results summary) =
      some { summary, passed := summary.passed, entries := results.map (entry root) } := by
  have hs : (jsonReport root results summary).member? "summary" = some (jsonSummary summary) := rfl
  have hr : summaryOf? (jsonSummary summary) = some summary := rfl
  have hp : (jsonReport root results summary).boolAt? "passed" = some summary.passed := rfl
  have he : (jsonReport root results summary).listAt? "results" entryOf? =
      some (results.map (entry root)) :=
    mapM_map_eq_some entryOf_jsonResult results
  simp only [contentOf?, hs, hr, hp, he, bind, Option.bind, pure]

end Report

/-- The report for programs, whatever the results, the summary and the root. Its text is a JSON text
of the report's value and of no other. Reading it gives back the summary, the verdict and, in their
order, what there is to tell about each result: the path that is shown, the status, whether the file
is ignored, and its findings with check, severity, message and line. A finding has the key `line`
exactly if it has a line. -/
theorem read_json (root : Option String) (results : List FileResult) (summary : Summary) :
    let text := Report.json root results summary
    let value := Report.jsonReport root results summary
    (∀ j, Json.IsTextOf text j ↔ j = value) ∧
    Json.read? text = some value ∧
    (Json.read? text).bind Report.contentOf? =
      some { summary, passed := summary.passed, entries := results.map (Report.entry root) } ∧
    ∀ f : Finding, (Report.jsonFinding f).member? "line" = f.line.map .number := by
  intro text value
  have htext : Json.IsTextOf text value := Json.isTextOf_print value
  have hread : Json.read? text = some value := Json.read_eq_some_iff.mpr htext
  refine ⟨fun j => ⟨fun h => h.unique htext, ?_⟩, hread, ?_, ?_⟩
  · rintro rfl
    exact htext
  · rw [hread, Option.bind_some]
    exact Report.contentOf_jsonReport results summary
  · exact Report.member_line_jsonFinding

end ScriptLint
