import ScriptLint.Proofs.FindingLines
import ScriptLint.Proofs.LineEnds

/-!
The order of a report. The findings on a script come check by check, in the order of the checks, and
each one is from a check that runs on the script. Main statement: `analyze_grouped`.
-/

namespace ScriptLint

theorem Check.nodup_all : Check.all.Nodup := by
  decide

/-- Elements that are left out of a list may as well stay and contribute nothing. -/
theorem flatMap_filter {α β : Type} (p : α → Bool) (f : α → List β) (l : List α) :
    (l.filter p).flatMap f = l.flatMap fun a => if p a then f a else [] := by
  induction l with
  | nil => rfl
  | cons a l ih =>
    rw [List.filter_cons, List.flatMap_cons, ← ih]
    split <;> rfl

/-- Where each element contributes at most once, one element alone contributes what it contributes
among all. -/
theorem flatMap_ite_eq {α β : Type} [DecidableEq α] (b : α) (f : α → List β) {l : List α}
    (hl : l.Nodup) :
    (l.flatMap fun a => if a = b then f a else []) = if b ∈ l then f b else [] := by
  induction l with
  | nil => rfl
  | cons a l ih =>
    obtain ⟨ha, hl⟩ := List.nodup_cons.mp hl
    rw [List.flatMap_cons, ih hl]
    by_cases hab : a = b
    · subst hab
      simp [ha]
    · simp [hab, Ne.symm hab]

namespace Settings

variable {settings : Settings} {script : Script}

theorem checksFor_eq (settings : Settings) (extension : String) :
    settings.checksFor extension =
      Check.all.filter fun check => settings.enables check && check.appliesTo extension := by
  rw [checksFor, checks, List.filter_filter]
  exact List.filter_congr fun check _ => Bool.and_comm _ _

theorem nodup_checksFor (settings : Settings) (extension : String) :
    (settings.checksFor extension).Nodup := by
  rw [checksFor_eq]
  exact Check.nodup_all.filter _

/-- The findings with the name of a check are those of the check, if it runs. -/
theorem filter_findings (settings : Settings) (script : Script) (check : Check) :
    (settings.findings script).filter (fun f => f.check == check.name) =
      if check ∈ settings.checksFor script.extension then check.evaluate settings script else
        [] := by
  -- Checks have different names, so the findings of one check all stay or all go.
  have hone (other : Check) : (other.evaluate settings script).filter
      (fun f => f.check == check.name) =
      if other = check then other.evaluate settings script else [] := by
    split
    · next he =>
      refine List.filter_eq_self.mpr fun f hf => ?_
      rw [Check.check_of_mem_evaluate hf, he]
      exact beq_self_eq_true _
    · next hne =>
      refine List.filter_eq_nil_iff.mpr fun f hf hname => hne ?_
      rw [Check.check_of_mem_evaluate hf] at hname
      exact Check.name_injective (beq_iff_eq.mp hname)
  rw [findings, List.filter_flatMap]
  simp only [hone]
  exact flatMap_ite_eq check (fun other => other.evaluate settings script)
    (settings.nodup_checksFor _)

/-- The findings on a script, sorted by check. -/
theorem findings_grouped (settings : Settings) (script : Script) :
    settings.findings script =
      Check.all.flatMap fun check => (settings.findings script).filter fun f =>
        f.check == check.name := by
  have hfilter (check : Check) : (settings.findings script).filter
      (fun f => f.check == check.name) =
      if settings.enables check && check.appliesTo script.extension then check.evaluate
        settings script
      else [] := by
    rw [filter_findings]
    simp only [mem_checksFor, Bool.and_eq_true]
  simp only [hfilter]
  rw [findings, checksFor_eq]
  exact flatMap_filter _ _ _

/-- A finding is from a check that runs. -/
theorem exists_of_mem_findings {f : Finding} (hf : f ∈ settings.findings script) :
    ∃ check : Check, check ∈ settings.checksFor script.extension ∧
      f ∈ check.evaluate settings script :=
  List.mem_flatMap.mp hf

end Settings

/-- The check that applies to whatever is neither a shell script nor a Python script. -/
theorem Check.eq_palette_of_appliesTo {check : Check} {extension : String}
    (h : check.appliesTo extension = true)
    (hs : extension ≠ "sh") (hp : extension ≠ "py") : check = .palette := by
  cases check with
  | palette => rfl
  | shebang => simp [appliesTo, interpreter?, hs, hp] at h
  | envIntegration => simp [appliesTo, hs, hp] at h
  | shellSyntax | failFast | pipefail | executable | loggingUsage | readonlyConstants |
    localVariables
  | descriptionHeader => exact absurd (by simpa [appliesTo] using h) hs

/-- The findings on a file that is read and not ignored, whatever it holds. They come check by
check, in the order of all checks. Each is from a check that runs, which means that it has what it
needs, is not disabled and applies to the extension; that is the one of colors alone where the file
is neither a shell script nor a Python script. A finding with a line is on a line of the text, or on
the first one if there is none. The check of colors reports each color of the palette at most once,
the check of functions reports one line after the other, and all others report at most once. -/
theorem analyze_grouped {settings : Settings} {t : FileTree} {cwd : Location} {c : Candidate}
    {text : String} (hr : c.Reads t cwd text) (hi : isIgnored text.toList = false) :
    let findings := (analyze settings t cwd c).findings
    let reported (check : Check) := findings.filter fun f => f.check == check.name
    findings = Check.all.flatMap reported ∧
    (∀ f ∈ findings, ∃ check : Check, f.check = check.name ∧
      (check = .shellSyntax → settings.validator.isSome = true) ∧ check.name ∉ settings.disabled ∧
      check.appliesTo c.extension = true ∧
      (c.extension ≠ "sh" → c.extension ≠ "py" → check = .palette)) ∧
    (∀ f ∈ findings, ∀ n, f.line = some n → 1 ≤ n ∧ n ≤ max 1 (lines text.toList).length) ∧
    (∃ colors : List (String × String), colors.Sublist settings.palette.entries ∧
      (colors.map Prod.fst).Nodup ∧ (reported .palette).map (·.message) = colors.map wrongColor) ∧
    (∃ numbers : List Nat, numbers.Pairwise (· < ·) ∧
      (reported .localVariables).map (·.line) = numbers.map some) ∧
    ∀ check, check ≠ .palette → check ≠ .localVariables → (reported check).length ≤ 1 := by
  intro findings reported
  have hfindings : findings = settings.findings (c.script t cwd text.toList) := by
    simp only [findings, analyze_of_checked settings hr hi]
  have hreported (check : Check) : reported check = [] ∨
      reported check = check.evaluate settings (c.script t cwd text.toList) := by
    simp only [reported, hfindings, Settings.filter_findings]
    split
    · exact .inr rfl
    · exact .inl rfl
  refine ⟨?_, ?_, ?_, ?_, ?_, ?_⟩
  · simp only [reported, hfindings]
    exact settings.findings_grouped _
  · intro f hf
    rw [hfindings] at hf
    obtain ⟨check, hruns, hf⟩ := Settings.exists_of_mem_findings hf
    obtain ⟨henabled, happlies⟩ := Settings.mem_checksFor.mp hruns
    refine ⟨check, Check.check_of_mem_evaluate hf, ?_, ?_, happlies,
      Check.eq_palette_of_appliesTo happlies⟩
    · rintro rfl
      simpa [Settings.enables] using (Bool.and_eq_true_iff.mp henabled).1
    · simpa using (Bool.and_eq_true_iff.mp henabled).2
  · intro f hf
    rw [hfindings] at hf
    obtain ⟨check, _, hf⟩ := Settings.exists_of_mem_findings hf
    exact Check.located_of_mem_evaluate hf
  · rcases hreported .palette with he | he
    · exact ⟨[], List.nil_sublist _, List.nodup_nil, by rw [he]; rfl⟩
    · obtain ⟨colors, hsub, hmessages⟩ :=
        messages_paletteFindings settings.palette (c.script t cwd text.toList)
      exact ⟨colors, hsub, (hsub.map Prod.fst).nodup settings.palette.nodup,
        by rw [he]; exact hmessages⟩
  · rcases hreported .localVariables with he | he
    · exact ⟨[], List.Pairwise.nil, by rw [he]; rfl⟩
    · obtain ⟨numbers, hsub, hlines⟩ := lines_localFindings (c.script t cwd text.toList)
      exact ⟨numbers, (List.pairwise_lt_range' 1).sublist hsub, by rw [he]; exact hlines⟩
  · intro check hp hl
    rcases hreported check with he | he
    · rw [he]
      exact Nat.zero_le 1
    · rw [he]
      exact (Check.evaluate_once settings _ hp hl).length_le

/-- A script with two wrong colors and two functions that leak variables. -/
def leakyScript : String :=
  "#!/bin/bash\nRED=1\nBLUE=2\nf() \x7b\nx=1\ny=2\nz=3\n\x7d\ng() \x7b\nx=1\ny=2\nz=3\n\x7d\n"

theorem analyze_grouped_leakyScript :
    let findings := (analyze {} (scriptOf leakyScript) [] ⟨"/a.sh", "sh"⟩).findings
    (⟨"/a.sh", "sh"⟩ : Candidate).Reads (scriptOf leakyScript) [] leakyScript ∧
    isIgnored leakyScript.toList = false ∧
    findings = Check.all.flatMap (fun check => findings.filter fun f => f.check == check.name) ∧
    findings.map (fun f => (f.check, f.line)) =
      [("fail-fast", none), ("pipefail", none), ("palette", some 2), ("palette", some 3),
        ("readonly-constants", some 2), ("local-variables", some 4), ("local-variables", some 9),
        ("description-header", some 2), ("env-integration", none)] := by
  obtain ⟨hr, hmode⟩ := reads_scriptOf leakyScript
  have hi : isIgnored leakyScript.toList = false := by decide +kernel
  have hgrouped := @analyze_grouped {} _ _ _ _ hr hi
  refine ⟨hr, hi, hgrouped.1, ?_⟩
  rw [analyze_of_checked _ hr hi, Candidate.script, hmode]
  decide +kernel

end ScriptLint
