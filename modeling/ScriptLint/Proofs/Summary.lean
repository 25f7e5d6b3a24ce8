import ScriptLint.Summary

/-!
What a summary counts. Main statement: `exitCode_ofResults_eq_success_iff`, a summary is a success
exactly when every result passes.
-/

namespace ScriptLint.Summary

theorem foldl_merge (a : Summary) (summaries : List Summary) :
    summaries.foldl merge a = a.merge (summaries.foldl merge {}) := by
  induction summaries generalizing a with
  | nil => rfl
  | cons s rest ih =>
    rw [List.foldl_cons, List.foldl_cons, ih, ih (merge {} s), empty_merge, merge_assoc]

theorem ofResults_cons (r : FileResult) (results : List FileResult) :
    ofResults (r :: results) = (ofResult r).merge (ofResults results) := by
  unfold ofResults
  rw [List.map_cons, List.foldl_cons, empty_merge, foldl_merge]

theorem failedFiles_ofResults (results : List FileResult) :
    (ofResults results).failedFiles = results.countP fun r => !r.passed := by
  induction results with
  | nil => rfl
  | cons r rest ih =>
    rw [ofResults_cons, List.countP_cons, ← ih]
    cases h : r.passed <;> simp [merge, ofResult, h, Nat.add_comm]

theorem totalFiles_ofResults (results : List FileResult) :
    (ofResults results).totalFiles = results.length := by
  induction results with
  | nil => rfl
  | cons r rest ih =>
    rw [ofResults_cons, List.length_cons, ← ih]
    simp [merge, ofResult, Nat.add_comm]

theorem passedFiles_ofResults (results : List FileResult) :
    (ofResults results).passedFiles = results.countP (·.passed) := by
  induction results with
  | nil => rfl
  | cons r rest ih =>
    rw [ofResults_cons, List.countP_cons, ← ih]
    cases h : r.passed <;> simp [merge, ofResult, h, Nat.add_comm]

/-- Each file passes or fails. -/
theorem totalFiles_eq_add (results : List FileResult) :
    (ofResults results).totalFiles = (ofResults results).passedFiles +
      (ofResults results).failedFiles := by
  rw [totalFiles_ofResults, passedFiles_ofResults, failedFiles_ofResults]
  have hsplit : results.length = results.countP (·.passed) + results.countP fun r => ¬ r.passed :=
    List.length_eq_countP_add_countP _
  simpa using hsplit

theorem totalWarnings_ofResults_cons (r : FileResult) (results : List FileResult) :
    (ofResults (r :: results)).totalWarnings =
      r.warningCount + (ofResults results).totalWarnings := by
  rw [ofResults_cons]
  rfl

theorem exitCode_ofResults_eq_success_iff {results : List FileResult} :
    (ofResults results).exitCode = .success ↔ ∀ r ∈ results, r.passed = true := by
  have hz : (ofResults results).failedFiles = 0 ↔ ∀ r ∈ results, r.passed = true := by
    rw [failedFiles_ofResults, List.countP_eq_zero]
    simp
  rw [← hz]
  simp [exitCode, passed]

theorem exitCode_ofResults_eq_checkFailed_iff {results : List FileResult} :
    (ofResults results).exitCode = .checkFailed ↔ ∃ r ∈ results, r.passed = false := by
  have hs := @exitCode_ofResults_eq_success_iff results
  have ht : (ofResults results).exitCode = .checkFailed ↔
      ¬ (ofResults results).exitCode = .success := by
    unfold exitCode
    split <;> simp
  rw [ht, hs]
  simp

end ScriptLint.Summary
