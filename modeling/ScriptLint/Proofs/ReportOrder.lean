import Mathlib
import ScriptLint.Proofs.Reports

/-!
The order of a report for readers. The report goes through the results once for each status; this is
one stable sort of all results. Main statements: `flatMap_filter_range`, a pass for each key sorts a
list, and `text_mergeSort`.
-/

namespace ScriptLint

/-! ## A pass for each key -/

section Passes

variable {α : Type} {key : α → Nat} {l : List α} {n : Nat}

/-- In a list that is sorted by the key, the elements with small keys come first. -/
theorem filter_append_filter (h : l.Pairwise (key · ≤ key ·)) (n : Nat) :
    l.filter (key · < n) ++ l.filter (n ≤ key ·) = l := by
  induction l with
  | nil => rfl
  | cons a l ih =>
    obtain ⟨hfirst, hrest⟩ := List.pairwise_cons.mp h
    by_cases ha : key a < n
    · simp [ha, ih hrest]
    · have hlarge : ∀ b ∈ l, n ≤ key b :=
        fun b hb => Nat.le_trans (Nat.le_of_not_lt ha) (hfirst b hb)
      have hnone : l.filter (key · < n) = [] :=
        List.filter_eq_nil_iff.mpr fun b hb => by simpa using hlarge b hb
      have hall : l.filter (n ≤ key ·) = l :=
        List.filter_eq_self.mpr fun b hb => by simpa using hlarge b hb
      simp [ha, Nat.le_of_not_lt ha, hnone, hall]

/-- A sorted list is made up of its elements with each key, one key after the other. -/
theorem flatMap_filter_of_sorted (h : l.Pairwise (key · ≤ key ·)) (hn : ∀ a ∈ l, key a < n) :
    ((List.range n).flatMap fun k => l.filter (key · = k)) = l := by
  induction n generalizing l with
  | zero =>
    cases l with
    | nil => rfl
    | cons a l => exact absurd (hn a List.mem_cons_self) (Nat.not_lt_zero _)
  | succ n ih =>
    have hbelow : ((List.range n).flatMap fun k => l.filter (key · = k)) =
        l.filter (key · < n) := by
      refine Eq.trans ?_
        (ih (h.sublist List.filter_sublist) fun a ha => by simpa using (List.mem_filter.mp ha).2)
      refine List.flatMap_congr fun k hk => ?_
      rw [List.filter_filter]
      refine List.filter_congr fun a _ => ?_
      have hk := List.mem_range.mp hk
      grind
    have hlast : l.filter (key · = n) = l.filter (n ≤ key ·) := by
      refine List.filter_congr fun a ha => ?_
      have ha := hn a ha
      grind
    rw [List.range_succ, List.flatMap_append, List.flatMap_singleton, hbelow, hlast,
      filter_append_filter h]

/-- The order by the key is total. -/
theorem keyOrder (key : α → Nat) :
    (∀ a b c, decide (key a ≤ key b) = true → decide (key b ≤ key c) = true →
      decide (key a ≤ key c) = true) ∧
      ∀ a b, (decide (key a ≤ key b) || decide (key b ≤ key a)) = true := by
  simp only [Bool.or_eq_true, decide_eq_true_eq]
  exact ⟨fun _ _ _ => Nat.le_trans, fun a b => Nat.le_total (key a) (key b)⟩

theorem pairwise_mergeSort_key (key : α → Nat) (l : List α) :
    (l.mergeSort (key · ≤ key ·)).Pairwise (key · ≤ key ·) := by
  have h := List.pairwise_mergeSort (keyOrder key).1 (keyOrder key).2 l
  exact h.imp fun h => of_decide_eq_true h

/-- Elements with the same key stay in their order. -/
theorem filter_mergeSort (key : α → Nat) (l : List α) (k : Nat) :
    (l.mergeSort (key · ≤ key ·)).filter (key · = k) = l.filter (key · = k) := by
  have hclass : (l.filter (key · = k)).Pairwise (fun a b => decide (key a ≤ key b) = true) := by
    refine List.pairwise_filter.mpr (List.pairwise_of_forall fun a b ha hb => ?_)
    rw [decide_eq_true_eq] at ha hb ⊢
    exact Nat.le_of_eq (ha.trans hb.symm)
  have hsub := List.sublist_mergeSort (keyOrder key).1 (keyOrder key).2 hclass List.filter_sublist
  have hperm := (List.mergeSort_perm l (key · ≤ key ·)).filter (key · = k)
  have hfilter := hsub.filter (key · = k)
  simp only [List.filter_filter, Bool.and_self] at hfilter
  exact (hfilter.eq_of_length hperm.length_eq.symm).symm

/-- A pass for each key sorts a list, and is stable. -/
theorem flatMap_filter_range (hn : ∀ a ∈ l, key a < n) :
    ((List.range n).flatMap fun k => l.filter (key · = k)) = l.mergeSort (key · ≤ key ·) := by
  have h := flatMap_filter_of_sorted (pairwise_mergeSort_key key l) fun a ha =>
    hn a ((List.mergeSort_perm l _).mem_iff.mp ha)
  simpa only [filter_mergeSort] using h

end Passes

/-! ## The report -/

/-- The place of the status in the order of the report. -/
def FileStatus.rank : FileStatus → Nat
  | failed => 0
  | warning => 1
  | passed => 2
  | ignored => 3

theorem FileStatus.rank_inj {status status' : FileStatus} :
    status.rank = status'.rank ↔ status = status' := by
  cases status <;> cases status' <;> decide

theorem FileStatus.rank_lt (status : FileStatus) : status.rank < 4 := by
  cases status <;> decide

theorem FileResult.status_eq (r : FileResult) :
    r.status =
      if r.ignored then .ignored
      else if ∃ f ∈ r.findings, f.severity = .critical then .failed
      else if ∃ f ∈ r.findings, f.severity = .warning then .warning
      else .passed := by
  have hcritical : (!r.passed) = true ↔
      r.ignored = false ∧ ∃ f ∈ r.findings, f.severity = .critical := by
    simp [passed]
  have hwarning : 0 < r.warningCount ↔ ∃ f ∈ r.findings, f.severity = .warning := by
    simp [warningCount, count, List.length_pos_iff_exists_mem]
  unfold status
  cases hi : r.ignored with
  | true => rfl
  | false => simp only [hcritical, hwarning, hi, true_and]

namespace Report

/-- The results by status, failed ones first; results with the same status stay in their order. -/
def byStatus (results : List FileResult) : List FileResult :=
  results.mergeSort (·.status.rank ≤ ·.status.rank)

theorem flatMap_all_eq (results : List FileResult) :
    (FileStatus.all.flatMap fun status => results.filter (·.status == status)) =
      byStatus results := by
  have hranks : List.range 4 = FileStatus.all.map FileStatus.rank := rfl
  rw [byStatus, ← flatMap_filter_range (n := 4) fun r _ => r.status.rank_lt, hranks,
    List.flatMap_map]
  refine List.flatMap_congr fun status _ => List.filter_congr fun r _ => ?_
  rw [Bool.eq_iff_iff, beq_iff_eq, decide_eq_true_eq, FileStatus.rank_inj]

/-- A pass is shown as a whole or not at all. -/
theorem filter_isShown_pass (verbose : Nat) (results : List FileResult) (status : FileStatus) :
    (results.filter (·.status == status)).filter (·.status.isShown verbose) =
      if status.isShown verbose then results.filter (·.status == status) else [] := by
  have hstatus : ∀ r ∈ results.filter (·.status == status), r.status = status :=
    fun r hr => eq_of_beq (List.mem_filter.mp hr).2
  split
  · next hshown => exact List.filter_eq_self.mpr fun r hr => (hstatus r hr).symm ▸ hshown
  · next hshown => exact List.filter_eq_nil_iff.mpr fun r hr => (hstatus r hr).symm ▸ hshown

/-- What is shown is what a report with all results shows, without the statuses that are left
out. -/
theorem shown_eq_filter (verbose : Nat) (results : List FileResult) :
    shown verbose results = (byStatus results).filter (·.status.isShown verbose) := by
  rw [shown, ← flatMap_all_eq, List.filter_flatMap]
  simp only [filter_isShown_pass]
  cases verbose <;> simp [FileStatus.all, FileStatus.isShown]

/-- A report that is not verbose lists the results with findings that count; a verbose one lists
all. -/
theorem shown_eq (verbose : Nat) (results : List FileResult) :
    shown verbose results =
      if verbose = 0 then (byStatus results).filter fun r => r.status = .failed ∨
        r.status = .warning
      else byStatus results := by
  rw [shown_eq_filter]
  split
  · next h =>
    subst h
    refine List.filter_congr fun r _ => ?_
    cases r.status <;> decide
  · next h =>
    refine List.filter_eq_self.mpr fun r _ => ?_
    cases r.status <;> simp [FileStatus.isShown, h]

end Report

/-- The report for readers, in any style, whatever the results and the summary. The results are
sorted by status, failed ones first, then those with warnings, those that passed and those that are
ignored; the sort is stable and loses no result. Each result has one block in this order, with the
sign, the word and the path in its status line, an entry for each finding in their order, and a
blank line, and the counts of the summary come last. A report that is not verbose is the same
without the blocks of the results that passed or are ignored. -/
theorem text_mergeSort (style : ReportStyle) (results : List FileResult) (summary : Summary) :
    let sorted := results.mergeSort (·.status.rank ≤ ·.status.rank)
    let listed := if style.verbose = 0 then sorted.filter fun r => r.status = .failed ∨
      r.status = .warning else sorted
    Report.text style results summary =
        String.join (listed.map fun r =>
          match r.status with
          | .failed => Report.blockText style "✗" "31" "FAILED" r
          | .warning => Report.blockText style "⚠" "33" "WARNING" r
          | .passed => Report.blockText style "✓" "32" "PASSED" r
          | .ignored => Report.blockText style "○" "36" "IGNORED" r) ++
        Report.countsText style.colored summary.totalFiles summary.passedFiles summary.failedFiles
          summary.totalWarnings ∧
      sorted.Perm results ∧
      sorted.Pairwise (·.status.rank ≤ ·.status.rank) ∧
      (∀ status, sorted.filter (·.status = status) = results.filter (·.status = status)) ∧
      ∀ r : FileResult, r.status =
        if r.ignored then .ignored
        else if ∃ f ∈ r.findings, f.severity = .critical then .failed
        else if ∃ f ∈ r.findings, f.severity = .warning then .warning
        else .passed := by
  intro sorted listed
  refine ⟨?_, List.mergeSort_perm results _, pairwise_mergeSort_key (·.status.rank) results,
    fun status => ?_,
    FileResult.status_eq⟩
  · rw [Report.text, Report.shown_eq, Report.summaryLine_eq]
    congr 2
    exact List.map_congr_left fun r _ => Report.block_eq style r
  · have h := filter_mergeSort (·.status.rank) results status.rank
    simpa only [FileStatus.rank_inj] using h

/-- The report on results of each kind: the failed ones keep their order, and a report that is not
verbose stops after the warnings. -/
theorem text_mergeSort_resultsOfEachKind :
    let summary := Summary.ofResults resultsOfEachKind
    let shownAlways :=
      "✗ \x1b[31mFAILED\x1b[0m: /w/zeta.sh\n" ++
      "   \x1b[31m✗\x1b[0m [shebang] line 1: missing shebang\n\n" ++
      "✗ \x1b[31mFAILED\x1b[0m: broken.sh\n   \x1b[33m⚠\x1b[0m [pipefail] missing pipefail\n" ++
      "   \x1b[31m✗\x1b[0m [shebang] line 1: missing shebang\n\n" ++
      "⚠ \x1b[33mWARNING\x1b[0m: /w/style.sh\n   \x1b[33m⚠\x1b[0m [fail-fast] missing set -e\n\n"
    let shownOnRequest :=
      "✓ \x1b[32mPASSED\x1b[0m: /w/clean.sh\n\n" ++
      "○ \x1b[36mIGNORED\x1b[0m: /w/legacy.sh\n" ++
      "   \x1b[31m✗\x1b[0m [syntax] line 12: unexpected end\n\n"
    let counts :=
      "Summary: 5 files checked, \x1b[32m3\x1b[0m passed, \x1b[31m2\x1b[0m failed, " ++
      "\x1b[33m2\x1b[0m warnings\n"
    Report.text { colored := true, verbose := 1, root := some "/w2" } resultsOfEachKind summary =
        shownAlways ++ shownOnRequest ++ counts ∧
      Report.text { colored := true, verbose := 0, root := some "/w2" } resultsOfEachKind summary =
        shownAlways ++ counts := by
  have hsorted : resultsOfEachKind.mergeSort (·.status.rank ≤ ·.status.rank) =
      [1, 4, 3, 2, 0].filterMap (resultsOfEachKind[·]?) := by
    cbv
  intro summary shownAlways shownOnRequest counts
  exact ⟨(text_mergeSort _ _ _).1.trans (by rw [hsorted]; decide +kernel),
    (text_mergeSort _ _ _).1.trans (by rw [hsorted]; decide +kernel)⟩

end ScriptLint
