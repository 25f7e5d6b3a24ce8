import ScriptLint.Proofs.Summary

/-!
Summaries of divided work. The results of a run may be dealt out to any number of workers, and the
summaries of the workers may be merged in any order and in any grouping. Main statement:
`summary_of_division`, the outcome is always the summary of all results, and it counts them.
-/

namespace ScriptLint

namespace Summary

variable {results : List FileResult}

theorem merge_comm (a b : Summary) : a.merge b = b.merge a := by
  simp only [merge, Nat.add_comm]

/-- Two summaries that are merged one after the other may come in either order. -/
theorem merge_left_comm (a b c : Summary) : a.merge (b.merge c) = b.merge (a.merge c) := by
  rw [← merge_assoc, merge_comm a b, merge_assoc]

theorem ofResults_append (first second : List FileResult) :
    ofResults (first ++ second) = (ofResults first).merge (ofResults second) := by
  induction first with
  | nil => exact (empty_merge _).symm
  | cons r first ih => rw [List.cons_append, ofResults_cons, ih, ofResults_cons, merge_assoc]

/-- The order of the results does not show in their summary. -/
theorem ofResults_perm {results' : List FileResult} (h : results.Perm results') :
    ofResults results = ofResults results' := by
  induction h with
  | nil => rfl
  | cons r _ ih => rw [ofResults_cons, ih, ofResults_cons]
  | swap r r' rest =>
    simp only [ofResults_cons]
    exact merge_left_comm _ _ _
  | trans _ _ ih ih' => exact ih.trans ih'

theorem totalWarnings_ofResults (results : List FileResult) :
    (ofResults results).totalWarnings =
      (results.flatMap (·.findings)).countP (·.severity == .warning) := by
  induction results with
  | nil => rfl
  | cons r rest ih =>
    rw [totalWarnings_ofResults_cons, List.flatMap_cons, List.countP_append, ← ih]
    rw [FileResult.warningCount, FileResult.count, List.countP_eq_length_filter]

end Summary

/-- A way to divide the results of a run among workers and to merge what they count. -/
inductive Division where
  /-- A worker to whom nothing was dealt. -/
  | idle
  /-- A worker that counts a single result. -/
  | single (r : FileResult)
  /-- A worker that summarises its results one after the other. -/
  | part (results : List FileResult)
  /-- Two groups of workers, whose summaries are merged. -/
  | merged (first second : Division)

namespace Division

/-- All results that were dealt out. -/
def results : Division → List FileResult
  | idle => []
  | single r => [r]
  | part results => results
  | merged first second => first.results ++ second.results

/-- What the workers come to in the end. -/
def summary : Division → Summary
  | idle => {}
  | single r => .ofResult r
  | part results => .ofResults results
  | merged first second => first.summary.merge second.summary

/-- Neither the parts nor the grouping of the mergers shows in the outcome. -/
theorem summary_eq (d : Division) : d.summary = Summary.ofResults d.results := by
  induction d with
  | idle => rfl
  | single r => exact (Summary.empty_merge _).symm
  | part results => rfl
  | merged first second ih ih' => rw [summary, ih, ih', results, Summary.ofResults_append]

end Division

/-- However the results are divided into parts, empty ones among them, and however the summaries of
the parts are ordered and grouped when they are merged, the outcome is the summary of the results in
their own order. It counts all files, of which each one passes or fails; a file fails if it is not
ignored and has a critical finding. The warnings of all files are counted, whether these pass or
not. -/
theorem summary_of_division {results : List FileResult} (d : Division)
    (h : d.results.Perm results) :
    let summary := Summary.ofResults results
    d.summary = summary ∧
    summary.totalFiles = results.length ∧
    summary.totalFiles = summary.passedFiles + summary.failedFiles ∧
    (summary.failedFiles = results.countP fun r =>
      !r.ignored && r.findings.any fun f => f.severity == .critical) ∧
    summary.totalWarnings = (results.flatMap (·.findings)).countP fun f =>
      f.severity == .warning := by
  intro summary
  refine ⟨?_, Summary.totalFiles_ofResults results, Summary.totalFiles_eq_add results, ?_,
    Summary.totalWarnings_ofResults results⟩
  · rw [d.summary_eq]
    exact Summary.ofResults_perm h
  · rw [Summary.failedFiles_ofResults]
    refine List.countP_congr fun r _ => ?_
    simp [FileResult.passed]

/-- A clean script, one that fails with a warning besides, one with a warning only, and an ignored
one. -/
def mixedResults : List FileResult := [
  { path := "a.sh" },
  { path := "b.sh"
    findings := [⟨"shebang", .critical, "missing shebang", some 1⟩,
      ⟨"pipefail", .warning, "missing 'set -o pipefail'", none⟩] },
  { path := "c.sh"
    findings := [⟨"palette", .warning, "incorrect color code for RED", some 3⟩] },
  { path := "d.sh", ignored := true }]

/-- The last two results go to one worker, the second to another one, and a third worker has nothing
to do. -/
def mixedDivision : Division :=
  .merged (.merged (.part (mixedResults.drop 2)) .idle)
    (.merged (.part ((mixedResults.drop 1).take 1)) (.single { path := "a.sh" }))

theorem summary_of_division_mixed :
    mixedDivision.results.Perm mixedResults ∧
      mixedDivision.summary = Summary.ofResults mixedResults ∧
      Summary.ofResults mixedResults =
        { totalFiles := 4, passedFiles := 3, failedFiles := 1, totalWarnings := 2 } := by
  have h : mixedDivision.results.Perm mixedResults := by decide
  exact ⟨h, (summary_of_division mixedDivision h).1, by decide⟩

end ScriptLint
