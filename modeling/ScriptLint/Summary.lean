import ScriptLint.ExitCode
import ScriptLint.FileResult

/-!
Summaries: the counts of a run. The summary of two lists of results, one after the other, is the
merger of their summaries.
-/

namespace ScriptLint

structure Summary where
  totalFiles : Nat := 0
  passedFiles : Nat := 0
  failedFiles : Nat := 0
  /-- Warnings in all files, whether they pass or not. -/
  totalWarnings : Nat := 0
  deriving DecidableEq, Repr

namespace Summary

def ofResult (r : FileResult) : Summary where
  totalFiles := 1
  passedFiles := if r.passed then 1 else 0
  failedFiles := if r.passed then 0 else 1
  totalWarnings := r.warningCount

def merge (a b : Summary) : Summary where
  totalFiles := a.totalFiles + b.totalFiles
  passedFiles := a.passedFiles + b.passedFiles
  failedFiles := a.failedFiles + b.failedFiles
  totalWarnings := a.totalWarnings + b.totalWarnings

def ofResults (results : List FileResult) : Summary :=
  (results.map ofResult).foldl merge {}

/-- No file failed. -/
def passed (s : Summary) : Bool :=
  s.failedFiles == 0

def exitCode (s : Summary) : ExitCode :=
  if s.passed then .success else .checkFailed

@[simp] theorem merge_empty (a : Summary) : a.merge {} = a := rfl

@[simp] theorem empty_merge (a : Summary) : merge {} a = a := by
  simp [merge]

theorem merge_assoc (a b c : Summary) : (a.merge b).merge c = a.merge (b.merge c) := by
  simp [merge, Nat.add_assoc]

end Summary

end ScriptLint
