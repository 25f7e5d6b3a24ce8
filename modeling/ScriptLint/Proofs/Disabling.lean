import ScriptLint.Proofs.Resolution
import ScriptLint.Proofs.Verdict

/-!
Disabling checks. No check looks at what the others report, so the findings with some checks
disabled are the findings of all checks without those of the disabled ones. Main statement:
`analyze_disabling`.
-/

namespace ScriptLint

namespace Settings

/-- The settings with the named checks disabled, and no others. -/
def disabling (settings : Settings) (names : List String) : Settings :=
  { settings with disabled := names }

variable {settings : Settings} {names : List String}

theorem enables_disabling {check : Check} :
    (settings.disabling names).enables check =
      (!names.contains check.name && (settings.disabling []).enables check) := by
  simp [disabling, enables, Bool.and_comm]

theorem checksFor_disabling {extension : String} :
    (settings.disabling names).checksFor extension =
      ((settings.disabling []).checksFor extension).filter fun check =>
        !names.contains check.name := by
  simp only [checksFor, checks, List.filter_filter]
  refine List.filter_congr fun check _ => ?_
  rw [enables_disabling, Bool.and_left_comm]

/-- What a check reports does not depend on the disabled names. -/
theorem evaluate_disabling {script : Script} {check : Check} :
    check.evaluate (settings.disabling names) script = check.evaluate settings script := by
  cases check <;> rfl

/-- The findings of a disabled check go, and those of any other check stay. -/
theorem filter_evaluate {script : Script} {check : Check} :
    (check.evaluate settings script).filter (fun f => !names.contains f.check) =
      if !names.contains check.name then check.evaluate settings script else [] := by
  split
  · next h =>
    refine List.filter_eq_self.mpr fun f hf => ?_
    rw [Check.check_of_mem_evaluate hf]
    exact h
  · next h =>
    refine List.filter_eq_nil_iff.mpr fun f hf => ?_
    rw [Check.check_of_mem_evaluate hf]
    exact h

theorem filter_flatMap_evaluate {script : Script} (checks : List Check) :
    (checks.flatMap (Check.evaluate settings script)).filter (fun f => !names.contains f.check) =
      (checks.filter fun check => !names.contains check.name).flatMap
        (Check.evaluate settings script) := by
  induction checks with
  | nil => rfl
  | cons check checks ih =>
    rw [List.flatMap_cons, List.filter_append, filter_evaluate, ih, List.filter_cons]
    split <;> rfl

/-- Disabling checks takes their findings away and leaves all others in their order. -/
theorem findings_disabling {script : Script} :
    (settings.disabling names).findings script =
      ((settings.disabling []).findings script).filter fun f => !names.contains f.check := by
  have hsame (names : List String) :
      Check.evaluate (settings.disabling names) script = Check.evaluate settings script :=
    funext fun _ => evaluate_disabling
  rw [findings, findings, hsame, hsame, filter_flatMap_evaluate, checksFor_disabling]

/-- The more names are disabled, the fewer files fail. -/
theorem passed_disabling {t : FileTree} {cwd : Location} {c : Candidate} {more : List String}
    (hmore : ∀ name ∈ names, name ∈ more)
    (hp : (analyze (settings.disabling names) t cwd c).passed = true) :
    (analyze (settings.disabling more) t cwd c).passed = true := by
  refine eq_true_of_ne_false fun hf => ?_
  have hfails : (analyze (settings.disabling names) t cwd c).passed = false := by
    refine analyze_passed_eq_false_iff.mpr ((analyze_passed_eq_false_iff.mp hf).imp_right ?_)
    rintro ⟨text, hr, hi, hrefuses | hmisses⟩
    · obtain ⟨he, hd, hv⟩ := hrefuses
      exact ⟨text, hr, hi, .inl ⟨he, fun hm => hd (hmore _ hm), hv⟩⟩
    · obtain ⟨he, hd, hs⟩ := hmisses
      exact ⟨text, hr, hi, .inr ⟨he, fun hm => hd (hmore _ hm), hs⟩⟩
  cases hfails.symm.trans hp

end Settings

/-- No check bears the name that findings on unreadable files bear. -/
theorem unreadable_ne_name (check : Check) : unreadable ≠ check.name := by
  cases check <;> decide

theorem Check.exists_of_isSome_named? {name : String} (h : (Check.named? name).isSome = true) :
    ∃ check : Check, check.name = name := by
  obtain ⟨check, hc⟩ := Option.isSome_iff_exists.mp h
  exact ⟨check, by simpa using List.find?_some hc⟩

/-- What disabling checks does to a result, whatever the file holds. The result keeps its path and
whether the file is ignored, loses the findings of the disabled checks, and keeps all others in
their order, also the one on an unreadable file. Disabling still more checks never makes a file
fail. -/
theorem analyze_disabling (settings : Settings) (t : FileTree) (cwd : Location) (c : Candidate)
    {names : List String} (hn : ∀ name ∈ names, (Check.named? name).isSome = true) :
    let full := analyze (settings.disabling []) t cwd c
    let kept := analyze (settings.disabling names) t cwd c
    kept = { full with findings := full.findings.filter fun f => !names.contains f.check } ∧
    (kept.findings.filter fun f => f.check == unreadable) =
      (full.findings.filter fun f => f.check == unreadable) ∧
    ∀ more, (∀ name ∈ names, name ∈ more) → kept.passed = true →
      (analyze (settings.disabling more) t cwd c).passed = true := by
  intro full kept
  have hstays : names.contains unreadable = false := by
    refine eq_false_of_ne_true fun hm => ?_
    obtain ⟨check, hc⟩ := Check.exists_of_isSome_named? (hn _ (List.contains_iff_mem.mp hm))
    exact unreadable_ne_name check hc.symm
  have hkept : kept = { full with
      findings := full.findings.filter fun f => !names.contains f.check } := by
    rcases c.unreadable_or_reads t cwd with hu | ⟨text, hr⟩
    · obtain ⟨message, hm⟩ := c.text_of_unreadable hu
      simp only [kept, full, analyze, hm, List.filter_cons, hstays, Bool.not_false, if_true,
        List.filter_nil]
    · cases hi : isIgnored text.toList with
      | true => simp only [kept, full, analyze_of_ignored _ hr hi, List.filter_nil]
      | false =>
        simp only [kept, full, analyze_of_checked _ hr hi]
        rw [Settings.findings_disabling]
  refine ⟨hkept, ?_, fun more hmore hp => Settings.passed_disabling hmore hp⟩
  rw [hkept, List.filter_filter]
  refine List.filter_congr fun f _ => ?_
  cases hf : f.check == unreadable with
  | false => rfl
  | true =>
    rw [beq_iff_eq.mp hf, hstays]
    rfl

/-- A script without an interpreter line that is not executable. -/
def plainScript : FileTree :=
  ⟨[([['a', '.', 's', 'h']], .file "echo\n".toUTF8 0o644)]⟩

theorem analyze_plainScript :
    analyze (Settings.disabling {} []) plainScript [] ⟨"/a.sh", "sh"⟩ =
      { path := "/a.sh"
        findings := (Settings.disabling {} []).findings
          ⟨"/a.sh", "sh", "echo\n".toList, some 0o644⟩ } := by
  have hw : plainScript.WellFormed := by decide
  have hg : plainScript.get? [['a', '.', 's', 'h']] = some (.file "echo\n".toUTF8 0o644) := rfl
  obtain ⟨hread, hmode⟩ := hw.file_toPath hg (by decide) []
  have hr : (⟨"/a.sh", "sh"⟩ : Candidate).Reads plainScript [] "echo\n" :=
    ⟨_, hread, Utf8.decode?_toUTF8 _⟩
  have hpath : Location.toPath [['a', '.', 's', 'h']] = "/a.sh" := by decide
  rw [analyze_of_checked _ hr (by decide), Candidate.script, ← hpath, hmode]

/-- The script fails for its first line alone, and passes with that check disabled. -/
theorem analyze_disabling_plainScript :
    let full := analyze (Settings.disabling {} []) plainScript [] ⟨"/a.sh", "sh"⟩
    let kept := analyze (Settings.disabling {} ["shebang"]) plainScript [] ⟨"/a.sh", "sh"⟩
    full.findings.map (·.check) =
      ["shebang", "fail-fast", "pipefail", "executable", "env-integration"] ∧
    kept.findings.map (·.check) = ["fail-fast", "pipefail", "executable", "env-integration"] ∧
    full.passed = false ∧ kept.passed = true := by
  have hkept := (@analyze_disabling {} plainScript [] ⟨"/a.sh", "sh"⟩ ["shebang"] (by decide)).1
  simp only [hkept, analyze_plainScript]
  decide +kernel

end ScriptLint
