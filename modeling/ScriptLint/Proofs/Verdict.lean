import ScriptLint.Analysis
import ScriptLint.Proofs.Findings

/-!
The verdict on one file. A file fails for one of three reasons: there is no text to read, the
validator does not accept the script, or the script does not start with an interpreter line. Main
statement: `analyze_fails_iff`.
-/

namespace ScriptLint

/-- The file of a candidate cannot be read, or its bytes are no text. -/
def Candidate.Unreadable (t : FileTree) (cwd : Location) (c : Candidate) : Prop :=
  (∃ e, t.read cwd c.path = .error e) ∨
    ∃ bytes, t.read cwd c.path = .ok bytes ∧ Utf8.decode? bytes = none

/-- The file of a candidate holds the text. -/
def Candidate.Reads (t : FileTree) (cwd : Location) (c : Candidate) (text : String) : Prop :=
  ∃ bytes, t.read cwd c.path = .ok bytes ∧ Utf8.decode? bytes = some text

/-- The candidate is a shell script that the validator is asked about and does not accept. -/
def Settings.Refuses (settings : Settings) (c : Candidate) : Prop :=
  c.extension = "sh" ∧ "syntax" ∉ settings.disabled ∧
    ∃ validate, settings.validator = some validate ∧ validate c.path ≠ .ok .valid

/-- The text of the candidate has to start with an interpreter line, and does not. -/
def Settings.MissesShebang (settings : Settings) (c : Candidate) (text : List Char) : Prop :=
  (c.extension = "sh" ∨ c.extension = "py") ∧ "shebang" ∉ settings.disabled ∧
    ¬ "#!".toList <+: (lines text).head?.getD []

theorem Candidate.text_of_reads {t : FileTree} {cwd : Location} {c : Candidate} {text : String}
    (h : c.Reads t cwd text) : c.text t cwd = .ok text.toList := by
  obtain ⟨bytes, hr, hd⟩ := h
  simp only [Candidate.text, hr, hd]

theorem Candidate.text_of_unreadable {t : FileTree} {cwd : Location} {c : Candidate}
    (h : c.Unreadable t cwd) : ∃ message, c.text t cwd = .error message := by
  rcases h with ⟨e, hr⟩ | ⟨bytes, hr, hd⟩
  · exact ⟨"cannot read file: " ++ e.message, by simp only [Candidate.text, hr]⟩
  · exact ⟨"file is not valid UTF-8 text", by simp only [Candidate.text, hr, hd]⟩

theorem Candidate.unreadable_or_reads (t : FileTree) (cwd : Location) (c : Candidate) :
    c.Unreadable t cwd ∨ ∃ text, c.Reads t cwd text := by
  cases hr : t.read cwd c.path with
  | error e => exact .inl (.inl ⟨e, hr⟩)
  | ok bytes =>
    cases hd : Utf8.decode? bytes with
    | none => exact .inl (.inr ⟨bytes, hr, hd⟩)
    | some text => exact .inr ⟨text, bytes, hr, hd⟩

namespace FileResult

/-- A result passes unless its file was checked and got a critical finding. -/
theorem passed_eq_false_iff {r : FileResult} :
    r.passed = false ↔ r.ignored = false ∧ ∃ f ∈ r.findings, f.severity = .critical := by
  simp [passed]

end FileResult

theorem Settings.mem_checksFor {settings : Settings} {check : Check} {extension : String} :
    check ∈ settings.checksFor extension ↔
      settings.enables check = true ∧ check.appliesTo extension = true := by
  simp [checksFor, checks, Check.mem_all, and_comm]

theorem Settings.shellSyntax_mem_checks {settings : Settings} :
    Check.shellSyntax ∈ settings.checks ↔
      "syntax" ∉ settings.disabled ∧ settings.validator.isSome := by
  simp [checks, Check.mem_all, enables, Check.name, and_comm]

theorem Settings.shellSyntax_mem_checksFor {settings : Settings} {extension : String} :
    Check.shellSyntax ∈ settings.checksFor extension ↔
      extension = "sh" ∧ "syntax" ∉ settings.disabled ∧ settings.validator.isSome := by
  rw [checksFor, List.mem_filter, shellSyntax_mem_checks, and_comm]
  simp [Check.appliesTo]

theorem Settings.shebang_mem_checksFor {settings : Settings} {extension : String} :
    Check.shebang ∈ settings.checksFor extension ↔
      (extension = "sh" ∨ extension = "py") ∧ "shebang" ∉ settings.disabled := by
  rw [mem_checksFor]
  have hi : (Check.interpreter? extension).isSome = true ↔ extension = "sh" ∨ extension = "py" := by
    unfold Check.interpreter?
    split
    · simp [*]
    · split <;> simp [*]
  simp [enables, Check.appliesTo, Check.name, hi, and_comm]

/-- A checked script gets a critical finding exactly from the syntax check or from the interpreter
line check. -/
theorem Settings.exists_critical_findings_iff {settings : Settings} {script : Script} :
    (∃ f ∈ settings.findings script, f.severity = .critical) ↔
      (Check.shellSyntax ∈ settings.checksFor script.extension ∧
        ∃ f ∈ syntaxFindings settings script, f.severity = .critical) ∨
      (Check.shebang ∈ settings.checksFor script.extension ∧
        ∃ f ∈ shebangFindings script, f.severity = .critical) := by
  constructor
  · rintro ⟨f, hf, hc⟩
    obtain ⟨check, hm, he⟩ := List.mem_flatMap.mp hf
    rcases Check.critical_of_mem_evaluate he hc with rfl | rfl
    · exact .inl ⟨hm, f, he, hc⟩
    · exact .inr ⟨hm, f, he, hc⟩
  · rintro (⟨hm, f, he, hc⟩ | ⟨hm, f, he, hc⟩)
    · exact ⟨f, List.mem_flatMap.mpr ⟨_, hm, he⟩, hc⟩
    · exact ⟨f, List.mem_flatMap.mpr ⟨_, hm, he⟩, hc⟩

/-- What the analysis says about a file without text: one critical finding and nothing else. -/
theorem analyze_of_unreadable {t : FileTree} {cwd : Location} {c : Candidate} (settings : Settings)
    (h : c.Unreadable t cwd) :
    ∃ message, analyze settings t cwd c =
      { path := c.path,
        findings := [{ check := "unreadable", severity := .critical, message }] } := by
  obtain ⟨message, hm⟩ := c.text_of_unreadable h
  exact ⟨message, by simp only [analyze, hm]; rfl⟩

theorem analyze_of_ignored {t : FileTree} {cwd : Location} {c : Candidate} {text : String}
    (settings : Settings) (h : c.Reads t cwd text) (hi : isIgnored text.toList = true) :
    analyze settings t cwd c = { path := c.path, ignored := true } := by
  simp only [analyze, c.text_of_reads h, hi, if_true]

theorem analyze_of_checked {t : FileTree} {cwd : Location} {c : Candidate} {text : String}
    (settings : Settings) (h : c.Reads t cwd text) (hi : isIgnored text.toList = false) :
    analyze settings t cwd c =
      { path := c.path, findings := settings.findings (c.script t cwd text.toList) } := by
  simp only [analyze, c.text_of_reads h, hi, Bool.false_eq_true, if_false]

/-- A checked file fails when the validator does not accept it or its interpreter line is
missing. -/
theorem checked_fails_iff {t : FileTree} {cwd : Location} {c : Candidate} {text : String}
    (settings : Settings) (h : c.Reads t cwd text) (hi : isIgnored text.toList = false) :
    (analyze settings t cwd c).passed = false ↔
      settings.Refuses c ∨ settings.MissesShebang c text.toList := by
  rw [analyze_of_checked settings h hi, FileResult.passed_eq_false_iff]
  simp only [true_and, Settings.exists_critical_findings_iff, exists_critical_syntaxFindings,
    exists_critical_shebangFindings]
  rw [Settings.shellSyntax_mem_checksFor, Settings.shebang_mem_checksFor]
  constructor
  · rintro (⟨⟨he, hd, _⟩, hv⟩ | ⟨⟨he, hd⟩, hs⟩)
    · exact .inl ⟨he, hd, hv⟩
    · exact .inr ⟨he, hd, hs⟩
  · rintro (⟨he, hd, validate, hv, ha⟩ | ⟨he, hd, hs⟩)
    · exact .inl ⟨⟨he, hd, by rw [hv]; rfl⟩, validate, hv, ha⟩
    · exact .inr ⟨⟨he, hd⟩, hs⟩

theorem analyze_passed_eq_false_iff {settings : Settings} {t : FileTree} {cwd : Location}
    {c : Candidate} :
    (analyze settings t cwd c).passed = false ↔
      c.Unreadable t cwd ∨
        ∃ text, c.Reads t cwd text ∧ isIgnored text.toList = false ∧
          (settings.Refuses c ∨ settings.MissesShebang c text.toList) := by
  constructor
  · intro hp
    rcases c.unreadable_or_reads t cwd with hu | ⟨text, hr⟩
    · exact .inl hu
    · cases hi : isIgnored text.toList with
      | true => simp [analyze_of_ignored settings hr hi, FileResult.passed] at hp
      | false => exact .inr ⟨text, hr, hi, (checked_fails_iff settings hr hi).mp hp⟩
  · rintro (hu | ⟨text, hr, hi, hw⟩)
    · obtain ⟨message, hm⟩ := analyze_of_unreadable settings hu
      rw [hm]
      rfl
    · exact (checked_fails_iff settings hr hi).mpr hw

/-- Two names of one file get the same verdict, if their extensions and the validator's answers
agree. -/
theorem analyze_passed_congr {settings : Settings} {t : FileTree} {cwd : Location} {c d : Candidate}
    (hr : t.read cwd c.path = t.read cwd d.path) (he : c.extension = d.extension)
    (hv : ∀ validate, settings.validator = some validate → validate c.path = validate d.path) :
    (analyze settings t cwd c).passed = (analyze settings t cwd d).passed := by
  have hrefuses : settings.Refuses c ↔ settings.Refuses d := by
    simp only [Settings.Refuses, he]
    refine and_congr_right fun _ => and_congr_right fun _ => exists_congr fun validate => ?_
    exact and_congr_right fun h => by rw [hv validate h]
  have hfails : (analyze settings t cwd c).passed = false ↔
      (analyze settings t cwd d).passed = false := by
    simp only [analyze_passed_eq_false_iff, Candidate.Unreadable, Candidate.Reads, hr, hrefuses,
      Settings.MissesShebang, he]
  cases hc : (analyze settings t cwd c).passed with
  | false => exact (hfails.mp hc).symm
  | true => exact (eq_true_of_ne_false fun hd => by simp [hfails.mpr hd] at hc).symm

/-- The critical findings of an analysis come from three sources. -/
theorem critical_of_mem_analyze {t : FileTree} {cwd : Location} {c : Candidate}
    {settings : Settings}
    {f : Finding} (hf : f ∈ (analyze settings t cwd c).findings) (hc : f.severity = .critical) :
    f.check = "unreadable" ∨ f.check = "syntax" ∨ f.check = "shebang" := by
  rcases c.unreadable_or_reads t cwd with hu | ⟨text, hr⟩
  · obtain ⟨message, hm⟩ := analyze_of_unreadable settings hu
    rw [hm] at hf
    rw [List.mem_singleton.mp hf]
    exact .inl rfl
  · cases hi : isIgnored text.toList with
    | true =>
      rw [analyze_of_ignored settings hr hi] at hf
      cases hf
    | false =>
      rw [analyze_of_checked settings hr hi] at hf
      obtain ⟨check, _, he⟩ := List.mem_flatMap.mp hf
      rw [Check.check_of_mem_evaluate he]
      rcases Check.critical_of_mem_evaluate he hc with rfl | rfl
      · exact .inr (.inl rfl)
      · exact .inr (.inr rfl)

/-- When a file fails, whatever its bytes are: it has no text, or it is a checked script that the
validator does not accept or that lacks its interpreter line. Without a text there is one critical
finding and no other, an ignored file passes without findings, and no other check can fail a
file. -/
theorem analyze_fails_iff (settings : Settings) (t : FileTree) (cwd : Location) (c : Candidate) :
    ((analyze settings t cwd c).passed = false ↔
      c.Unreadable t cwd ∨
        ∃ text, c.Reads t cwd text ∧ isIgnored text.toList = false ∧
          (settings.Refuses c ∨ settings.MissesShebang c text.toList)) ∧
    (c.Unreadable t cwd → ∃ message, (analyze settings t cwd c).findings =
      [{ check := "unreadable", severity := .critical, message }]) ∧
    (∀ text, c.Reads t cwd text → isIgnored text.toList = true →
      (analyze settings t cwd c).passed = true ∧ (analyze settings t cwd c).findings = []) ∧
    (∀ f ∈ (analyze settings t cwd c).findings, f.severity = .critical →
      f.check = "unreadable" ∨ f.check = "syntax" ∨ f.check = "shebang") := by
  refine ⟨analyze_passed_eq_false_iff, ?_, ?_, fun f hf hc => critical_of_mem_analyze hf hc⟩
  · intro hu
    obtain ⟨message, hm⟩ := analyze_of_unreadable settings hu
    exact ⟨message, by rw [hm]⟩
  · intro text hr hi
    rw [analyze_of_ignored settings hr hi]
    exact ⟨rfl, rfl⟩

end ScriptLint
