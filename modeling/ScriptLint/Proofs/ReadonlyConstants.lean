import ScriptLint.Proofs.Disabling
import ScriptLint.Proofs.Grouping
import ScriptLint.Proofs.LoggingUsage

/-!
Readonly colors are readonly constants. Two readers know the keyword `readonly`: that of colors
reads a line from its start, that of constants reads what is left of it without the blanks at its
ends. Main statements: `readonlyConstant?_eq_some_iff`, the second accepts exactly what the first
accepts with an upper-case name, and `logging_or_constants`.
-/

namespace ScriptLint

namespace Shell

variable {name : List Char} {line : Line} {c : Char}

/-- Upper-case letters, digits and underscores, with no digit at the start. -/
abbrev IsConstantName : List Char → Prop :=
  Spelled isUpperStart isUpperPart

theorem isNameStart_of_isUpperStart (h : isUpperStart c = true) : isNameStart c = true := by
  simp only [isUpperStart, Bool.or_eq_true] at h
  rcases h with h | h <;> simp [isNameStart, isLetter, h]

theorem isNamePart_of_isUpperPart (h : isUpperPart c = true) : isNamePart c = true := by
  simp only [isUpperPart, Bool.or_eq_true] at h
  rcases h with h | h
  · exact isNamePart_of_isNameStart (isNameStart_of_isUpperStart h)
  · simp [isNamePart, h]

theorem isIdentifier_of_isConstantName (h : IsConstantName name) : IsIdentifier name := by
  cases h with
  | cons hc hs =>
    exact .cons (isNameStart_of_isUpperStart hc) fun d hd => isNamePart_of_isUpperPart (hs d hd)

/-- Both readers see the same assignments, as far as the name is that of a constant. -/
theorem readonlyConstant?_eq_some_iff :
    readonlyConstant? line = some name ↔ Assigns line ⟨name, true⟩ ∧ IsConstantName name := by
  rw [readonlyConstant?, Option.bind_eq_some_iff]
  constructor
  · rintro ⟨s, hs, hread⟩
    obtain ⟨gap, hne, hgap, htrim, -⟩ := afterKeyword_eq_some_iff.mp hs
    obtain ⟨rest, rfl, hname⟩ := (beforeEquals?_readName?_eq_some_iff rfl).mp hread
    -- The trimmed line begins with the keyword; what was trimmed goes back to its two ends.
    obtain ⟨lead, hlead, hline, -⟩ := exists_blanks_trimStart line
    obtain ⟨trail, -, htrail⟩ := exists_blanks_trimEnd (trimStart line)
    rw [trim] at htrim
    rw [htrim] at htrail
    refine ⟨?_, hname⟩
    have hassigns : Assigns
        (lead ++ ("readonly".toList ++ (gap ++ (name ++ '=' :: (rest ++ trail))))) ⟨name, true⟩ :=
      .readonly hlead hne hgap (isIdentifier_of_isConstantName hname)
    rw [hline, htrail]
    simpa using hassigns
  · rintro ⟨hassigns, hname⟩
    cases hassigns with
    | @readonly lead gap _ rest hlead hne hgap hidentifier =>
      have hstart : trimStart (lead ++ ("readonly".toList ++ (gap ++ (name ++ '=' :: rest)))) = _ :=
        trimStart_append hlead
          (isIdentifier_readonly.stops_append (fun _ => isNamePart_of_isNameStart) _)
      -- The equals sign is no blank, so that the end of the line is trimmed only after it.
      have hend : trimEnd ("readonly".toList ++ (gap ++ (name ++ '=' :: rest))) =
          "readonly".toList ++ (gap ++ (name ++ '=' :: trimEnd rest)) := by
        simpa using trimEnd_append_cons ("readonly".toList ++ (gap ++ name))
          (by decide : isBlank '=' = false) rest
      refine ⟨name ++ '=' :: trimEnd rest, ?_,
        (beforeEquals?_readName?_eq_some_iff rfl).mpr ⟨_, rfl, hname⟩⟩
      apply afterKeyword_eq_some_iff.mpr
      refine ⟨gap, hne, hgap, ?_, hidentifier.stops_append (fun _ => isNamePart_of_isNameStart) _⟩
      rw [trim, hstart, hend]

end Shell

variable {palette : Palette} {settings : Settings} {script : Script} {line : Line}

/-- All names of the palette are those of constants. -/
def Palette.UpperCase (palette : Palette) : Prop :=
  ∀ color ∈ palette.entries, Shell.IsConstantName color.1.toList

theorem Palette.upperCase_standard : Palette.standard.UpperCase := by
  have hread : ∀ color ∈ standard.entries, Shell.constantName? color.1.toList =
      some (color.1.toList, []) := by
    decide
  intro color hcolor
  exact (Shell.readName?_eq_some_iff.mp (hread color hcolor)).2.1

/-- One readonly line is enough for the check of constants. -/
theorem constantFindings_of_readonly {name : List Char} (hline : line ∈ script.lines)
    (h : Shell.Assigns line ⟨name, true⟩) (hname : Shell.IsConstantName name) :
      constantFindings script = [] := by
  have hread := Shell.readonlyConstant?_eq_some_iff.mpr ⟨h, hname⟩
  have hany : (script.lines.any fun line => (readonlyConstant? line).isSome) = true :=
    List.any_eq_true.mpr ⟨line, hline, by rw [hread]; rfl⟩
  exact if_pos hany

theorem constantFindings_of_makesReadonly (h : palette.UpperCase) (hline : line ∈ script.lines)
    (hreadonly : MakesReadonly palette line) : constantFindings script = [] := by
  obtain ⟨color, hcolor, hassigns⟩ := hreadonly
  exact constantFindings_of_readonly hline hassigns (h color hcolor)

/-- Whatever the check of the logging reports comes from a readonly line. -/
theorem loggingFindings_or_constantFindings (h : palette.UpperCase) (script : Script) :
    loggingFindings palette script = [] ∨ constantFindings script = [] := by
  by_cases hreadonly : ∃ line ∈ script.lines, MakesReadonly palette line
  · obtain ⟨line, hline, hreadonly⟩ := hreadonly
    exact .inr (constantFindings_of_makesReadonly h hline hreadonly)
  · exact .inl (loggingFindings_of_none (by simpa using hreadonly))

/-- What the analysis says in the name of a check is what the check says about the text of the
file. -/
theorem mem_evaluate_of_mem_analyze {t : FileTree} {cwd : Location} {c : Candidate} {f : Finding}
    {check : Check} (hf : f ∈ (analyze settings t cwd c).findings) (hname : f.check = check.name) :
    ∃ text, c.text t cwd = .ok text ∧ f ∈ check.evaluate settings (c.script t cwd text) := by
  unfold analyze at hf
  split at hf
  · rw [List.mem_singleton.mp hf] at hname
    exact absurd hname (unreadable_ne_name check)
  · next text htext =>
    split at hf
    · cases hf
    · obtain ⟨other, -, hf⟩ := Settings.exists_of_mem_findings hf
      rw [Check.check_of_mem_evaluate hf] at hname
      exact ⟨text, htext, Check.name_injective hname ▸ hf⟩

/-- A readonly color counts as a readonly constant, if the names of the colors are those of
constants: where the groups of colors have a readonly definition, the check of constants finds
nothing. So it never reports a script, or a file, that the check of the logging reports. -/
theorem logging_or_constants (h : settings.palette.UpperCase) :
    (∀ script : Script, ∀ group ∈ ColorDefinitions.ofLines settings.palette script.numberedLines,
      ∀ d ∈ group.2, d.readonly = true → constantFindings script = []) ∧
    (∀ script, loggingFindings settings.palette script = [] ∨ constantFindings script = []) ∧
    ∀ t cwd c, ∀ f ∈ (analyze settings t cwd c).findings, ∀ g ∈ (analyze settings t cwd c).findings,
      ¬(f.check = Check.loggingUsage.name ∧ g.check = Check.readonlyConstants.name) := by
  refine ⟨?_, loggingFindings_or_constantFindings h, ?_⟩
  · intro script group hgroup d hd hreadonly
    have hmem :=
      ColorDefinitions.mem_flatMap_ofLines_iff.mp (List.mem_flatMap.mpr ⟨group, hgroup, hd⟩)
    obtain ⟨hm, name, hassigns⟩ := hmem
    rw [hreadonly] at hassigns
    exact constantFindings_of_makesReadonly h (exists_mem_numbered_iff.mp ⟨d.number, hm⟩)
      (ColorDefinitions.exists_readonly_iff.mp ⟨name, hassigns⟩)
  · rintro t cwd c f hf g hg ⟨hlogging, hconstants⟩
    obtain ⟨text, htext, hf⟩ := mem_evaluate_of_mem_analyze hf hlogging
    obtain ⟨text', htext', hg⟩ := mem_evaluate_of_mem_analyze hg hconstants
    rw [htext] at htext'
    cases htext'
    rcases loggingFindings_or_constantFindings h (c.script t cwd text) with hnone | hnone
    · exact List.ne_nil_of_mem hf hnone
    · exact List.ne_nil_of_mem hg hnone

/-- A color that is made readonly between wide blanks, and a constant that is not. -/
def spacedScript : Script where
  path := "/a.sh"
  extension := "sh"
  text := "\u2003readonly\u00a0RED='1'\u3000\nIMAGE=app\n".toList

theorem logging_or_constants_spacedScript :
    Palette.standard.UpperCase ∧
      loggingFindings .standard spacedScript = [Check.loggingUsage.warn unusedColors (some 1)] ∧
      constantFindings spacedScript = [] := by
  have hlogging : loggingFindings .standard spacedScript =
      [Check.loggingUsage.warn unusedColors (some 1)] := by
    decide +kernel
  have hnone := (@logging_or_constants {} Palette.upperCase_standard).2.1 spacedScript
  refine ⟨Palette.upperCase_standard, hlogging, hnone.resolve_left ?_⟩
  show loggingFindings .standard spacedScript ≠ []
  rw [hlogging]
  exact List.cons_ne_nil _ _

end ScriptLint
