import ScriptLint.Check.Evaluate

/-!
Who reports what. Every finding of a check bears the name of that check, and only the syntax check
and the interpreter line check ever report a critical one (`critical_of_mem_evaluate`). The
conditions under which these two do so are `exists_critical_syntaxFindings` and
`exists_critical_shebangFindings`.
-/

namespace ScriptLint

namespace Check

/-- The findings are warnings of the check. -/
def OnlyWarns (check : Check) (findings : List Finding) : Prop :=
  ∀ f ∈ findings, ∃ message line, f = check.warn message line

theorem onlyWarns_nil (check : Check) : check.OnlyWarns [] := by
  intro f hf
  cases hf

theorem onlyWarns_warn (check : Check) (message : String) (line : Option Nat) :
    check.OnlyWarns [check.warn message line] := by
  intro f hf
  exact ⟨message, line, List.mem_singleton.mp hf⟩

theorem onlyWarns_ite {check : Check} {p : Prop} [Decidable p] {message : String}
    {line : Option Nat} : check.OnlyWarns (if p then [] else [check.warn message line]) := by
  split
  · exact onlyWarns_nil check
  · exact onlyWarns_warn check message line

end Check

theorem failFastFindings_onlyWarns (script : Script) :
    Check.failFast.OnlyWarns (failFastFindings script) :=
  Check.onlyWarns_ite

theorem pipefailFindings_onlyWarns (script : Script) :
    Check.pipefail.OnlyWarns (pipefailFindings script) :=
  Check.onlyWarns_ite

theorem executableFindings_onlyWarns (script : Script) :
    Check.executable.OnlyWarns (executableFindings script) := by
  unfold executableFindings
  split
  · split
    · exact Check.onlyWarns_warn _ _ _
    · exact Check.onlyWarns_nil _
  · exact Check.onlyWarns_nil _

theorem paletteFindings_onlyWarns (palette : Palette) (script : Script) :
    Check.palette.OnlyWarns (paletteFindings palette script) := by
  intro f hf
  obtain ⟨⟨name, code⟩, _, he⟩ := List.mem_filterMap.mp hf
  simp only at he
  split at he
  · cases he
  · cases he
  · split at he
    · cases he
    · exact ⟨_, _, (Option.some.inj he).symm⟩

theorem loggingFindings_onlyWarns (palette : Palette) (script : Script) :
    Check.loggingUsage.OnlyWarns (loggingFindings palette script) := by
  unfold loggingFindings
  split
  · exact Check.onlyWarns_nil _
  · exact Check.onlyWarns_ite

theorem constantFindings_onlyWarns (script : Script) :
    Check.readonlyConstants.OnlyWarns (constantFindings script) := by
  unfold constantFindings
  split
  · exact Check.onlyWarns_nil _
  · simp only
    split
    · exact Check.onlyWarns_warn _ _ _
    · exact Check.onlyWarns_nil _

theorem localFindings_onlyWarns (script : Script) :
    Check.localVariables.OnlyWarns (localFindings script) := by
  intro f hf
  obtain ⟨body, _, rfl⟩ := List.mem_map.mp hf
  exact ⟨_, _, rfl⟩

theorem descriptionFindings_onlyWarns (script : Script) :
    Check.descriptionHeader.OnlyWarns (descriptionFindings script) := by
  unfold descriptionFindings
  split
  · exact Check.onlyWarns_ite
  · exact Check.onlyWarns_nil _

theorem envFindings_onlyWarns (settings : Settings) (script : Script) :
    Check.envIntegration.OnlyWarns (envFindings settings script) := by
  unfold envFindings
  split
  · exact Check.onlyWarns_ite
  · exact Check.onlyWarns_nil _

/-- A finding of the syntax check means that the validator did not accept the file. -/
theorem mem_syntaxFindings {settings : Settings} {script : Script} {f : Finding}
    (hf : f ∈ syntaxFindings settings script) :
    (∃ message, f = Check.shellSyntax.fail message) ∧
      ∃ validate, settings.validator = some validate ∧ validate script.path ≠ .ok .valid := by
  unfold syntaxFindings at hf
  cases hv : settings.validator with
  | none => simp [hv] at hf
  | some validate =>
    simp only [hv] at hf
    cases ha : validate script.path with
    | error e =>
      simp only [ha, validationFindings, List.mem_singleton] at hf
      exact ⟨⟨_, hf⟩, validate, rfl, by simp [ha]⟩
    | ok answer =>
      cases answer with
      | valid => simp [ha, validationFindings] at hf
      | invalid diagnostic =>
        refine ⟨?_, validate, rfl, by simp [ha]⟩
        simp only [ha, validationFindings] at hf
        split at hf
        · exact ⟨_, List.mem_singleton.mp hf⟩
        · exact ⟨_, List.mem_singleton.mp hf⟩

/-- The syntax check fails a file exactly when there is a validator that does not accept it. -/
theorem exists_critical_syntaxFindings {settings : Settings} {script : Script} :
    (∃ f ∈ syntaxFindings settings script, f.severity = .critical) ↔
      ∃ validate, settings.validator = some validate ∧ validate script.path ≠ .ok .valid := by
  constructor
  · rintro ⟨f, hf, _⟩
    exact (mem_syntaxFindings hf).2
  · rintro ⟨validate, hv, ha⟩
    have hne : validationFindings (validate script.path) ≠ [] := by
      unfold validationFindings
      split
      · next h => exact absurd h ha
      · split <;> exact List.cons_ne_nil _ _
      · exact List.cons_ne_nil _ _
    have he : syntaxFindings settings script = validationFindings (validate script.path) := by
      simp only [syntaxFindings, hv]
    obtain ⟨f, hf⟩ := List.exists_mem_of_ne_nil _ hne
    rw [← he] at hf
    obtain ⟨⟨message, hm⟩, _⟩ := mem_syntaxFindings hf
    exact ⟨f, hf, by rw [hm]; rfl⟩

theorem shebangFindings_of_missing {script : Script} (h : ¬ "#!".toList <+: script.firstLine) :
    shebangFindings script = [Check.shebang.fail "missing shebang" (some 1)] := by
  rw [← isSome_stripStart_iff, Option.not_isSome_iff_eq_none] at h
  have hn : (stripStart "#!".toList script.firstLine).isNone := by rw [h]; rfl
  unfold shebangFindings
  exact if_pos hn

theorem shebangFindings_onlyWarns {script : Script} (h : "#!".toList <+: script.firstLine) :
    Check.shebang.OnlyWarns (shebangFindings script) := by
  rw [← isSome_stripStart_iff] at h
  have hn : ¬ (stripStart "#!".toList script.firstLine).isNone := by
    simpa using Option.isSome_iff_ne_none.mp h
  unfold shebangFindings
  rw [if_neg hn]
  split
  · exact Check.onlyWarns_ite
  · exact Check.onlyWarns_nil _

/-- The interpreter line check fails a file exactly when its first line does not start with `#!`. -/
theorem exists_critical_shebangFindings {script : Script} :
    (∃ f ∈ shebangFindings script, f.severity = .critical) ↔
      ¬ "#!".toList <+: script.firstLine := by
  constructor
  · rintro ⟨f, hf, hc⟩ h
    obtain ⟨message, line, rfl⟩ := shebangFindings_onlyWarns h f hf
    cases hc
  · intro h
    rw [shebangFindings_of_missing h]
    exact ⟨_, List.mem_singleton_self _, rfl⟩

namespace Check

/-- Nine of the checks only warn. -/
theorem evaluate_onlyWarns {check : Check} (settings : Settings) (script : Script)
    (hs : check ≠ shellSyntax) (hb : check ≠ shebang) :
    check.OnlyWarns (check.evaluate settings script) := by
  cases check with
  | shellSyntax => exact absurd rfl hs
  | shebang => exact absurd rfl hb
  | failFast => exact failFastFindings_onlyWarns script
  | pipefail => exact pipefailFindings_onlyWarns script
  | executable => exact executableFindings_onlyWarns script
  | palette => exact paletteFindings_onlyWarns settings.palette script
  | loggingUsage => exact loggingFindings_onlyWarns settings.palette script
  | readonlyConstants => exact constantFindings_onlyWarns script
  | localVariables => exact localFindings_onlyWarns script
  | descriptionHeader => exact descriptionFindings_onlyWarns script
  | envIntegration => exact envFindings_onlyWarns settings script

/-- A finding bears the name of the check that reports it. -/
theorem check_of_mem_evaluate {check : Check} {settings : Settings} {script : Script} {f : Finding}
    (hf : f ∈ check.evaluate settings script) : f.check = check.name := by
  by_cases hs : check = shellSyntax
  · subst hs
    obtain ⟨⟨message, rfl⟩, _⟩ := mem_syntaxFindings hf
    rfl
  · by_cases hb : check = shebang
    · subst hb
      by_cases h : "#!".toList <+: script.firstLine
      · obtain ⟨message, line, rfl⟩ := shebangFindings_onlyWarns h f hf
        rfl
      · have hm : f ∈ shebangFindings script := hf
        rw [shebangFindings_of_missing h] at hm
        rw [List.mem_singleton.mp hm]
        rfl
    · obtain ⟨message, line, rfl⟩ := evaluate_onlyWarns settings script hs hb f hf
      rfl

/-- Only two checks report critical findings. -/
theorem critical_of_mem_evaluate {check : Check} {settings : Settings} {script : Script}
    {f : Finding} (hf : f ∈ check.evaluate settings script) (hc : f.severity = .critical) :
    check = shellSyntax ∨ check = shebang := by
  by_cases hs : check = shellSyntax
  · exact .inl hs
  · by_cases hb : check = shebang
    · exact .inr hb
    · obtain ⟨message, line, rfl⟩ := evaluate_onlyWarns settings script hs hb f hf
      cases hc

end Check

end ScriptLint
