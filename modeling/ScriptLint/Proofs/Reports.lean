import ScriptLint.Proofs.Summary
import ScriptLint.Report.Format

/-!
The report for readers and the report for programs tell the same story. Both sort out the same
results as failed, and so do the summary and the exit code. Main statement: `reports_agree`.
-/

namespace ScriptLint

namespace Json

/-- The member of an object with the key. -/
def member? (key : String) : Json → Option Json
  | .object members => members.lookup key
  | _ => none

/-- The text that an object has for the key. -/
def textAt? (key : String) (j : Json) : Option String :=
  match j.member? key with
  | some (.text s) => some s
  | _ => none

/-- The elements of the array that an object has for the key. -/
def elementsAt (key : String) (j : Json) : List Json :=
  match j.member? key with
  | some (.array elements) => elements
  | _ => []

end Json

/-- A result is shown as failed exactly if it does not pass; an ignored one passes whatever it
carries. -/
theorem FileResult.status_eq_failed_iff {r : FileResult} :
    r.status = .failed ↔ r.passed = false := by
  unfold status
  split
  · next hi => simp [passed, hi]
  · split
    · next hp => simpa using hp
    · next hp =>
      rw [Bool.not_eq_true', Bool.not_eq_false] at hp
      rw [hp]
      split <;> simp

/-! ## The texts of a report -/

theorem decimalText_eq_toString (n : Nat) : decimalText n = toString n := by
  have hdigit : ∀ d, d < 10 → digitChar d = d.digitChar := by decide
  have hdecimal : decimal n = Nat.toDigits 10 n := by
    fun_induction decimal n with
    | case1 n h => rw [Nat.toDigits_of_lt_base h, hdigit n h]
    | case2 n h ih =>
      rw [Nat.toDigits_of_base_le (by decide) (Nat.le_of_not_lt h), ih,
        hdigit _ (Nat.mod_lt n (by decide))]
  rw [decimalText, hdecimal]
  rfl

namespace Report

/-- A text in a color: the number of the color stands between the characters that terminals look
for. -/
def inColor (colored : Bool) (number text : String) : String :=
  if colored then "\x1b[" ++ number ++ "m" ++ text ++ "\x1b[0m" else text

/-- What a reader sees of a finding. -/
def entryText (colored : Bool) (f : Finding) : String :=
  "   " ++ (match f.severity with
    | .critical => inColor colored "31" "✗"
    | .warning => inColor colored "33" "⚠") ++
    " [" ++ f.check ++ "]" ++ (match f.line with
    | some n => " line " ++ toString n ++ ":"
    | none => "") ++ " " ++ f.message ++ "\n"

/-- What a reader sees of a result under a heading: the sign, the word and the path, then the
findings, and a blank line. -/
def blockText (style : ReportStyle) (sign number word : String) (r : FileResult) : String :=
  sign ++ " " ++ inColor style.colored number word ++ ": " ++
    Path.display r.path style.root ++ "\n" ++
    String.join (r.findings.map (entryText style.colored)) ++ "\n"

/-- What a reader sees of the counts. -/
def countsText (colored : Bool) (total passed failed warnings : Nat) : String :=
  "Summary: " ++ toString total ++ " files checked, " ++ inColor colored "32" (toString passed) ++
    " passed, " ++ inColor colored "31" (toString failed) ++ " failed, " ++
    inColor colored "33" (toString warnings) ++ " warnings\n"

section Texts

variable (style : ReportStyle)

theorem finding_eq (f : Finding) : finding style f = entryText style.colored f := by
  unfold finding entryText location
  cases f.severity <;> cases f.line <;> simp only [decimalText_eq_toString] <;> rfl

theorem block_eq (r : FileResult) :
    block style r =
      match r.status with
      | .failed => blockText style "✗" "31" "FAILED" r
      | .warning => blockText style "⚠" "33" "WARNING" r
      | .passed => blockText style "✓" "32" "PASSED" r
      | .ignored => blockText style "○" "36" "IGNORED" r := by
  have hentries : r.findings.map (finding style) = r.findings.map (entryText style.colored) :=
    List.map_congr_left fun f _ => finding_eq style f
  unfold block
  rw [hentries]
  cases r.status <;> rfl

theorem block_of_failed {r : FileResult} (h : r.passed = false) :
    block style r = blockText style "✗" "31" "FAILED" r := by
  rw [block_eq, FileResult.status_eq_failed_iff.mpr h]

/-- The heading of a result that passes, from what is known about the result. -/
theorem block_of_passed {r : FileResult} (h : r.passed = true) :
    block style r =
      if r.ignored then blockText style "○" "36" "IGNORED" r
      else if 0 < r.warningCount then blockText style "⚠" "33" "WARNING" r
      else blockText style "✓" "32" "PASSED" r := by
  rw [block_eq, FileResult.status, h]
  cases r.ignored with
  | true => rfl
  | false =>
    by_cases hw : 0 < r.warningCount
    · simp [hw]
    · simp [hw]

theorem summaryLine_eq (s : Summary) :
    summaryLine style s =
      countsText style.colored s.totalFiles s.passedFiles s.failedFiles s.totalWarnings := by
  simp only [summaryLine, decimalText_eq_toString]
  rfl

end Texts

/-! ## What is shown -/

variable {root : Option String} {results : List FileResult}

/-- The results that are shown with another status than failed. -/
def shownUnfailed (verbose : Nat) (results : List FileResult) : List FileResult :=
  ([FileStatus.warning, .passed, .ignored].filter (·.isShown verbose)).flatMap fun status =>
    results.filter (·.status == status)

theorem of_mem_shownUnfailed {verbose : Nat} {r : FileResult}
    (h : r ∈ shownUnfailed verbose results) :
    r ∈ results ∧ r.passed = true := by
  obtain ⟨status, hs, hr⟩ := List.mem_flatMap.mp h
  obtain ⟨hmem, he⟩ := List.mem_filter.mp hr
  refine ⟨hmem, ?_⟩
  cases hp : r.passed with
  | true => rfl
  | false =>
    rw [beq_iff_eq, FileResult.status_eq_failed_iff.mpr hp] at he
    subst he
    simp at hs

/-- The failed results come first, in their order, whatever else is shown. -/
theorem shown_eq_append (verbose : Nat) (results : List FileResult) :
    shown verbose results =
      results.filter (fun r => !r.passed) ++ shownUnfailed verbose results := by
  have hfailed : results.filter (·.status == .failed) = results.filter fun r => !r.passed := by
    refine List.filter_congr fun r _ => ?_
    rw [Bool.eq_iff_iff, beq_iff_eq, FileResult.status_eq_failed_iff, Bool.not_eq_true']
  rw [← hfailed]
  rfl

/-- The status of a result in the report for programs. -/
theorem jsonResult_failed (r : FileResult) :
    ((jsonResult root r).textAt? "status" == some "failed") = !r.passed := by
  have hs : (jsonResult root r).textAt? "status" = some (if r.passed then "passed" else "failed") :=
    rfl
  rw [hs]
  cases r.passed <;> decide

/-- The findings with the severity `warning` of one result in the report for programs. -/
theorem countP_jsonFinding (r : FileResult) :
    ((jsonResult root r).elementsAt "findings").countP
      (fun j => j.textAt? "severity" == some "warning") = r.warningCount := by
  have hf : (jsonResult root r).elementsAt "findings" = r.findings.map jsonFinding := rfl
  rw [hf, List.countP_map, FileResult.warningCount, FileResult.count,
    ← List.countP_eq_length_filter]
  refine List.countP_congr fun f _ => ?_
  have hs : (jsonFinding f).textAt? "severity" = some f.severity.name := rfl
  rw [Function.comp, hs]
  cases f.severity <;> decide

theorem countP_jsonFindings (results : List FileResult) :
    ((results.map (jsonResult root)).flatMap (·.elementsAt "findings")).countP
      (fun j => j.textAt? "severity" == some "warning") =
      (Summary.ofResults results).totalWarnings := by
  induction results with
  | nil => rfl
  | cons r rest ih =>
    rw [List.map_cons, List.flatMap_cons, List.countP_append, countP_jsonFinding, ih,
      Summary.totalWarnings_ofResults_cons]

end Report

/-- What the two reports and the exit code say about the same results, whatever the style. The
results to which the report for programs gives the status `failed` are, in their order, those that
the report for readers shows under `FAILED`, and the summary counts them. It shows all others after
them, under other words. There is no failed one exactly if the report for programs says that the run
passed, and exactly if the exit code is zero. The totals are those of the report for programs. -/
theorem reports_agree (style : ReportStyle) (results : List FileResult) :
    let summary := Summary.ofResults results
    let report := Report.jsonReport style.root results summary
    let listed := report.elementsAt "results"
    let isFailed (j : Json) := j.textAt? "status" == some "failed"
    let failed := results.filter fun r => isFailed (Report.jsonResult style.root r)
    Report.render .json style results summary = report.print ∧
    listed = results.map (Report.jsonResult style.root) ∧
    listed.filter isFailed = failed.map (Report.jsonResult style.root) ∧
    (∃ others : List FileResult, Report.render .text style results summary =
        String.join (failed.map (Report.blockText style "✗" "31" "FAILED") ++ others.map fun r =>
          if r.ignored then Report.blockText style "○" "36" "IGNORED" r
          else if 0 < r.warningCount then Report.blockText style "⚠" "33" "WARNING" r
          else Report.blockText style "✓" "32" "PASSED" r) ++
        Report.countsText style.colored listed.length (listed.length - failed.length) failed.length
          summary.totalWarnings ∧
      ∀ r ∈ others, r ∈ results ∧ r ∉ failed) ∧
    failed.length = summary.failedFiles ∧
    report.member? "passed" = some (.bool (failed.length == 0)) ∧
    (summary.exitCode.toNat = 0 ↔ failed.length = 0) ∧
    summary.totalFiles = listed.length ∧
    summary.totalWarnings = ((listed.flatMap (·.elementsAt "findings")).countP fun j =>
      j.textAt? "severity" == some "warning") ∧
    report.member? "summary" = some (Report.jsonSummary summary) := by
  intro summary report listed isFailed failed
  have hlisted : listed = results.map (Report.jsonResult style.root) := rfl
  have hsort : ∀ r, isFailed (Report.jsonResult style.root r) = !r.passed :=
    Report.jsonResult_failed
  have hfailed : failed = results.filter fun r => !r.passed := List.filter_congr fun r _ => hsort r
  have hlength : failed.length = summary.failedFiles := by
    rw [hfailed, Summary.failedFiles_ofResults, List.countP_eq_length_filter]
  have htotal : summary.totalFiles = listed.length := by
    rw [hlisted, List.length_map, Summary.totalFiles_ofResults]
  have hpassed : summary.passedFiles = listed.length - failed.length := by
    have hdivided : summary.totalFiles = summary.passedFiles + summary.failedFiles :=
      Summary.totalFiles_eq_add results
    omega
  have hblock : ∀ r ∈ failed, Report.block style r = Report.blockText style "✗" "31" "FAILED" r :=
    fun r hr => Report.block_of_failed style (by simpa [hsort] using (List.mem_filter.mp hr).2)
  have hother : ∀ r ∈ Report.shownUnfailed style.verbose results, r ∈ results ∧ r.passed = true :=
    fun r hr => Report.of_mem_shownUnfailed hr
  refine ⟨rfl, hlisted, ?_,
    ⟨Report.shownUnfailed style.verbose results, ?_, fun r hr => ⟨(hother r hr).1, ?_⟩⟩,
    hlength, ?_, ?_, htotal, ?_, rfl⟩
  · rw [hlisted, List.filter_map]
    rfl
  · rw [Report.render, Report.text, Report.shown_eq_append, ← hfailed, List.map_append,
      Report.summaryLine_eq, List.map_congr_left hblock,
      List.map_congr_left fun r hr => Report.block_of_passed style (hother r hr).2, hpassed, htotal,
        hlength]
  · rw [hfailed, List.mem_filter]
    simp [(hother r hr).2]
  · rw [hlength]
    rfl
  · rw [hlength, Summary.exitCode, Summary.passed]
    cases hz : summary.failedFiles == 0 with
    | true => simpa [ExitCode.toNat] using hz
    | false => simpa [ExitCode.toNat] using hz
  · rw [hlisted, Report.countP_jsonFindings]

/-- Results of each kind; the ignored one carries a critical finding. -/
def resultsOfEachKind : List FileResult := [
  { path := "/w/legacy.sh", ignored := true,
    findings := [⟨"syntax", .critical, "unexpected end", some 12⟩] },
  { path := "/w/zeta.sh", findings := [⟨"shebang", .critical, "missing shebang", some 1⟩] },
  { path := "/w/clean.sh" },
  { path := "/w/style.sh", findings := [⟨"fail-fast", .warning, "missing set -e", none⟩] },
  { path := "/w2/broken.sh", findings := [
    ⟨"pipefail", .warning, "missing pipefail", none⟩, ⟨"shebang", .critical, "missing shebang",
      some 1⟩] }]

/-- The reports on results of each kind, for a root that has all of them below it but one. -/
theorem reports_agree_resultsOfEachKind :
    let style : ReportStyle := { verbose := 1, root := some "/w" }
    let summary := Summary.ofResults resultsOfEachKind
    Report.render .text style resultsOfEachKind summary =
      "✗ FAILED: zeta.sh\n   ✗ [shebang] line 1: missing shebang\n\n" ++
      "✗ FAILED: /w2/broken.sh\n   ⚠ [pipefail] missing pipefail\n" ++
      "   ✗ [shebang] line 1: missing shebang\n\n" ++
      "⚠ WARNING: style.sh\n   ⚠ [fail-fast] missing set -e\n\n" ++
      "✓ PASSED: clean.sh\n\n" ++
      "○ IGNORED: legacy.sh\n   ✗ [syntax] line 12: unexpected end\n\n" ++
      "Summary: 5 files checked, 3 passed, 2 failed, 2 warnings\n" ∧
    (resultsOfEachKind.map fun r => (Report.jsonResult style.root r).textAt? "status") =
      [some "passed", some "failed", some "passed", some "passed", some "failed"] ∧
    (Report.jsonReport style.root resultsOfEachKind summary).member? "passed" = some (.bool false) ∧
    summary.exitCode.toNat ≠ 0 := by
  intro style summary
  obtain ⟨-, -, -, -, hlength, hpassed, hexit, -⟩ := reports_agree style resultsOfEachKind
  have htwo : summary.failedFiles = 2 := by decide +kernel
  rw [htwo] at hlength
  rw [hlength] at hpassed hexit
  exact ⟨by decide +kernel,
    by decide +kernel, hpassed, fun hzero => absurd (hexit.mp hzero) (by decide)⟩

end ScriptLint
