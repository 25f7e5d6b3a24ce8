import ScriptLint.Proofs.Characters
import ScriptLint.Proofs.Failure
import ScriptLint.Proofs.FindingLines
import ScriptLint.Proofs.Inspection

/-!
Messages are on one line. They show pieces of the script, of its path, of the settings and of what a
shell has to say, and none of these pieces brings a line feed with it. Main statement:
`singleLines_analyze`.
-/

namespace ScriptLint

/-- No message has a line feed. -/
def SingleLines (findings : List Finding) : Prop :=
  ∀ f ∈ findings, Lacks '\n' f.message

theorem singleLines_nil : SingleLines [] :=
  nofun

theorem singleLines_singleton {f : Finding} (h : Lacks '\n' f.message) : SingleLines [f] :=
  List.forall_mem_singleton.mpr h

theorem singleLines_warn {check : Check} {message : String} {line : Option Nat}
    (h : Lacks '\n' message) :
    SingleLines [check.warn message line] :=
  singleLines_singleton h

theorem singleLines_ite {p : Prop} [Decidable p] {findings : List Finding}
    (h : SingleLines findings) :
    SingleLines (if p then [] else findings) := by
  split
  · exact singleLines_nil
  · exact h

/-! ## What the system and a shell have to say -/

namespace FileTree

variable {t : FileTree} {cwd : Location} {path : String} {e : IoError}

theorem lacks_of_follow {links : Nat} {here : Location} {names : List (List Char)}
    (h : t.follow links here names = .error e) : Lacks '\n' e.message := by
  -- Whatever leads on is followed by induction; all other ends of a way are places or errors with
  -- fixed texts.
  fun_induction follow t links here names with
  | case1 | case5 | case8 => cases h
  | case2 _ _ _ _ _ ih | case3 _ _ _ _ ih => exact ih h
  | case7 links here name rest hfiller hparent hshort next hget ih => exact ih h
  | case11 here name rest hfiller hparent hshort next target links start hget ih => exact ih h
  | case4 | case6 | case9 | case10 =>
    cases h
    decide

theorem lacks_of_checkPath (h : checkPath path = .error e) : Lacks '\n' e.message := by
  unfold checkPath at h
  simp only at h
  split at h
  · cases h; decide
  split at h
  · cases h; decide
  split at h
  · cases h; decide
  · cases h

theorem lacks_of_locate (h : t.locate cwd path = .error e) : Lacks '\n' e.message := by
  unfold locate at h
  split at h
  · cases h
  · cases h
    decide
  · next hspot =>
    cases h
    rcases bind_eq_error hspot with hpath | ⟨_, _, hfollow⟩
    · exact lacks_of_checkPath hpath
    · exact lacks_of_follow hfollow

/-- Why a file cannot be read is said on one line. -/
theorem lacks_of_read (h : t.read cwd path = .error e) : Lacks '\n' e.message := by
  rcases bind_eq_error h with hlocate | ⟨l, _, hentry⟩
  · exact lacks_of_locate hlocate
  · split at hentry
    · cases hentry
    · cases hentry
      decide
    · cases hentry
      decide

end FileTree

namespace Shell

theorem lf_not_mem_of_identifier? {s name rest : List Char}
    (h : identifier? s = some (name, rest)) : '\n' ∉ name :=
  not_mem_of_readName? rfl rfl h

theorem lf_not_mem_of_declaredFunction? {line name : List Char}
    (h : declaredFunction? line = some name) :
    '\n' ∉ name := by
  rcases Option.or_eq_some_iff.mp h with hkeyword | ⟨_, hbracket⟩
  · obtain ⟨⟨_, rest⟩, hread, rfl⟩ := Option.map_eq_some_iff.mp hkeyword
    obtain ⟨s, _, hread⟩ := Option.bind_eq_some_iff.mp hread
    exact lf_not_mem_of_identifier? hread
  · unfold bracketFunction? at hbracket
    split at hbracket
    · cases hbracket
    · next hread =>
      have hname := lf_not_mem_of_identifier? hread
      split at hbracket
      · split at hbracket
        · split at hbracket
          · cases hbracket
            exact hname
          · cases hbracket
        · cases hbracket
      · cases hbracket

/-- The lines of a diagnostic are joined without line feeds. -/
theorem lacks_diagnostic (stderr : ByteArray) : Lacks '\n' (diagnostic stderr) := by
  refine lacks_intercalate (by decide) fun text htext => ?_
  obtain ⟨line, hline, rfl⟩ := List.mem_map.mp htext
  obtain ⟨line', hline', rfl⟩ := List.mem_map.mp (List.mem_filter.mp hline).1
  rw [lacks_ofList]
  exact fun hc => lf_not_mem_of_mem_lines line' hline' (mem_of_mem_trim hc)

end Shell

/-- The validator answers as a shell does, by the way in which it ended and by what it put out, or
there is an error of the system with a text of one line. -/
def Validator.IsShell (validate : Validator) : Prop :=
  ∀ path, (∃ output, validate path = .ok (Shell.validation output)) ∨
    ∃ e, validate path = .error e ∧ Lacks '\n' e.message

/-- The texts of the settings that messages show are on one line each, and a shell validates the
syntax if anything does. -/
structure Settings.SingleLine (settings : Settings) : Prop where
  colors : ∀ color ∈ settings.palette.entries, Lacks '\n' color.1 ∧ Lacks '\n' color.2
  envFile : Lacks '\n' settings.envFile
  pythonMarker : Lacks '\n' settings.pythonMarker
  validator : ∀ validate, settings.validator = some validate → Validator.IsShell validate

/-- The validator of a run is a shell. -/
theorem isShell_checkSettings {programs : Programs} {t : FileTree}
    (h : ∀ program args e, ((programs program args).run t).1 = .error e → Lacks '\n' e.message)
    (config : Config) (shell : Option String) {validate : Validator}
    (hv : (checkSettings config programs shell t).validator = some validate) :
      validate.IsShell := by
  intro path
  obtain ⟨shell, _, rfl⟩ := Option.map_eq_some_iff.mp hv
  have hanswer : ((Shell.validate programs shell path).run t).1 =
      ((programs shell ["-n", path]).run t).1.map Shell.validation := rfl
  cases hrun : ((programs shell ["-n", path]).run t).1 with
  | ok output => exact .inl ⟨output, hanswer.trans (by rw [hrun]; rfl)⟩
  | error e => exact .inr ⟨e, hanswer.trans (by rw [hrun]; rfl), h _ _ _ hrun⟩

/-! ## The messages of each check -/

variable {settings : Settings} {script : Script}

theorem Script.lf_not_mem_firstLine (script : Script) : '\n' ∉ script.firstLine := by
  unfold firstLine
  cases h : script.lines with
  | nil => exact List.not_mem_nil
  | cons line others =>
    have hmem : line ∈ script.lines := h ▸ List.mem_cons_self
    exact lf_not_mem_of_mem_lines line hmem

theorem singleLines_validationFindings {validate : Validator} (h : validate.IsShell)
    (path : String) :
    SingleLines (validationFindings (validate path)) := by
  rcases h path with ⟨output, hok⟩ | ⟨e, herror, he⟩
  · rw [hok, Shell.validation]
    split
    · exact singleLines_nil
    · unfold validationFindings
      simp only
      split
      · exact singleLines_singleton (by decide)
      · exact singleLines_singleton (.append (by decide) (Shell.lacks_diagnostic _))
  · rw [herror]
    exact singleLines_singleton (.append (by decide) he)

theorem singleLines_syntaxFindings (h : settings.SingleLine) :
    SingleLines (syntaxFindings settings script) := by
  unfold syntaxFindings
  split
  · next validate hv => exact singleLines_validationFindings (h.validator validate hv) script.path
  · exact singleLines_nil

theorem singleLines_shebangFindings : SingleLines (shebangFindings script) := by
  have hshown : Lacks '\n' (String.ofList (trim script.firstLine)) :=
    lacks_ofList.mpr fun hc => script.lf_not_mem_firstLine (mem_of_mem_trim hc)
  unfold shebangFindings
  simp only
  split
  · exact singleLines_singleton (by decide)
  · split
    · next interpreter hi =>
      have hinterpreter : Lacks '\n' interpreter := by
        unfold Check.interpreter? at hi
        split at hi
        · cases hi; decide
        split at hi
        · cases hi; decide
        · cases hi
      refine singleLines_ite (singleLines_warn ?_)
      exact .append (.append (.append (by decide) hinterpreter) (by decide)) hshown
    · exact singleLines_nil

theorem singleLines_failFastFindings : SingleLines (failFastFindings script) :=
  singleLines_ite (singleLines_warn (by decide))

theorem singleLines_pipefailFindings : SingleLines (pipefailFindings script) :=
  singleLines_ite (singleLines_warn (by decide))

theorem singleLines_executableFindings (hpath : Lacks '\n' script.path) :
    SingleLines (executableFindings script) := by
  have hshown : Lacks '\n' (((Path.fileName? script.path).map String.ofList).getD script.path) := by
    cases hname : Path.fileName? script.path with
    | none => exact hpath
    | some name => exact lacks_ofList.mpr fun hc => hpath (Path.mem_of_fileName? hname _ hc)
  unfold executableFindings
  split
  · split
    · exact singleLines_warn (.append (.append (by decide) hshown) (by decide))
    · exact singleLines_nil
  · exact singleLines_nil

theorem singleLines_paletteFindings (h : settings.SingleLine) :
    SingleLines (paletteFindings settings.palette script) := by
  intro f hf
  obtain ⟨colors, hsub, hmessages⟩ := messages_paletteFindings settings.palette script
  have hm : f.message ∈ colors.map wrongColor :=
    hmessages ▸ List.mem_map_of_mem (f := (·.message)) hf
  obtain ⟨color, hcolor, he⟩ := List.mem_map.mp hm
  obtain ⟨hname, hcode⟩ := h.colors color (hsub.subset hcolor)
  rw [← he]
  exact .append (.append (.append (.append (by decide) hname) (by decide)) hcode) (by decide)

theorem singleLines_loggingFindings : SingleLines (loggingFindings settings.palette script) := by
  unfold loggingFindings
  split
  · exact singleLines_nil
  · exact singleLines_ite (singleLines_warn (by decide))

theorem lf_not_mem_of_assignedConstant? {line : Line} {name : List Char}
    (h : assignedConstant? line = some name) :
    '\n' ∉ name := by
  obtain ⟨rest, hread⟩ := Shell.beforeEquals?_eq_some_iff.mp h
  exact Shell.not_mem_of_readName? rfl rfl hread

theorem singleLines_constantFindings : SingleLines (constantFindings script) := by
  unfold constantFindings
  refine singleLines_ite ?_
  simp only
  split
  · next n name h =>
    obtain ⟨⟨_, line⟩, _, he⟩ := List.exists_of_findSome?_eq_some h
    obtain ⟨name, hname, he⟩ := Option.map_eq_some_iff.mp he
    cases he
    have hlacks : Lacks '\n' (String.ofList name) :=
      lacks_ofList.mpr (lf_not_mem_of_assignedConstant? hname)
    exact singleLines_warn (.append (.append (by decide) hlacks) (by decide))
  · exact singleLines_nil

theorem singleLines_localFindings : SingleLines (localFindings script) := by
  intro f hf
  obtain ⟨body, hbody, rfl⟩ := List.mem_map.mp hf
  have hlacks : Lacks '\n' (String.ofList body.name) := by
    rcases Shell.declared_of_mem_leakingFunctions hbody with ⟨_, hopen, _⟩ | ⟨line, _, hdeclared⟩
    · cases hopen
    · exact lacks_ofList.mpr (Shell.lf_not_mem_of_declaredFunction? hdeclared)
  exact .append (.append (by decide) hlacks) (by decide)

theorem singleLines_descriptionFindings : SingleLines (descriptionFindings script) := by
  unfold descriptionFindings
  split
  · exact singleLines_ite (singleLines_warn (by decide))
  · exact singleLines_nil

theorem singleLines_envFindings (h : settings.SingleLine) :
    SingleLines (envFindings settings script) := by
  unfold envFindings
  split
  · next needed shown hneeded =>
    have hshown : Lacks '\n' shown := by
      unfold envRequirement? at hneeded
      split at hneeded
      · cases hneeded
        exact .append h.pythonMarker (by decide)
      split at hneeded
      · cases hneeded
        exact h.envFile
      · cases hneeded
    exact singleLines_ite (singleLines_warn (.append (.append (by decide) hshown) (by decide)))
  · exact singleLines_nil

/-- No check brings a line feed into a message. -/
theorem Check.singleLines_evaluate (h : settings.SingleLine) (hpath : Lacks '\n' script.path)
    (check : Check) :
    SingleLines (check.evaluate settings script) := by
  cases check with
  | shellSyntax => exact singleLines_syntaxFindings h
  | shebang => exact singleLines_shebangFindings
  | failFast => exact singleLines_failFastFindings
  | pipefail => exact singleLines_pipefailFindings
  | executable => exact singleLines_executableFindings hpath
  | palette => exact singleLines_paletteFindings h
  | loggingUsage => exact singleLines_loggingFindings
  | readonlyConstants => exact singleLines_constantFindings
  | localVariables => exact singleLines_localFindings
  | descriptionHeader => exact singleLines_descriptionFindings
  | envIntegration => exact singleLines_envFindings h

/-- Why a file is not looked at is said on one line. -/
theorem lacks_of_text {t : FileTree} {cwd : Location} {c : Candidate} {message : String}
    (h : c.text t cwd = .error message) : Lacks '\n' message := by
  unfold Candidate.text at h
  split at h
  · next hread =>
    cases h
    exact .append (by decide) (FileTree.lacks_of_read hread)
  · split at h
    · cases h
    · cases h
      decide

/-- No finding on a file has a message of more than one line, whether the file is read or not. -/
theorem singleLines_analyze (h : settings.SingleLine) (t : FileTree) (cwd : Location)
    {c : Candidate}
    (hpath : Lacks '\n' c.path) : SingleLines (analyze settings t cwd c).findings := by
  unfold analyze
  split
  · next message hmessage => exact singleLines_singleton (lacks_of_text hmessage)
  · split
    · exact singleLines_nil
    · intro f hf
      obtain ⟨check, _, hf⟩ := List.mem_flatMap.mp hf
      exact check.singleLines_evaluate h hpath f hf

end ScriptLint
