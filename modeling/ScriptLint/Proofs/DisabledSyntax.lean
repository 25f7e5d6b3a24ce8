import ScriptLint.Proofs.SyntaxGate

/-!
Runs with the syntax check disabled. Main statement: `run_syntaxDisabled`, such a run reports as if
there were no shell, and yet it does not start without its shell unless syntax checks are switched
off in another way.
-/

namespace ScriptLint

open ScriptLint.Action

/-! ## Runs -/

namespace Host

/-- The host with other programs. -/
def withPrograms (host : Host) (programs : Programs) : Host :=
  { host with programs }

end Host

namespace CheckRequest

/-- The shell that a run asks about syntax, if it asks one. -/
def shellName (c : CheckRequest) (config : Config) : String :=
  c.shell.getD config.syntaxCheck.shell

/-- The run tries its shell before it scans: syntax checks are switched on, and the run may meet
shell scripts. The list of disabled checks has no part in this. -/
def NeedsShell (c : CheckRequest) (host : Host) (config : Config) : Prop :=
  config.syntaxCheck.enabled = true ∧ c.noSyntax = false ∧
    ∃ filter, c.filter host config = .ok filter ∧ maySeeShell filter c.path = true

end CheckRequest

section Runs

variable {host : Host} {r : Request} {c : CheckRequest} {t : FileTree} {config : Config}
  {filter : Filter} {programs : Programs}

theorem needsShell_iff (hfilter : c.filter host config = .ok filter) :
    c.NeedsShell host config ↔ chosenShell? config c filter = some (c.shellName config) := by
  have hsee : (∃ filter', c.filter host config = .ok filter' ∧ maySeeShell filter' c.path = true) ↔
      maySeeShell filter c.path = true := by
    simp [hfilter]
  rw [CheckRequest.NeedsShell, hsee, chosenShell?, CheckRequest.shellName]
  simp [and_assoc]

theorem chosenShell?_of_not_needsShell (hfilter : c.filter host config = .ok filter)
    (h : ¬c.NeedsShell host config) : chosenShell? config c filter = none := by
  rw [needsShell_iff hfilter, chosenShell?] at h
  rw [chosenShell?, if_neg]
  intro hcond
  exact h (if_pos hcond)

/-- A run gets past a shell that can be started and changes no files when it is asked for its
version. -/
theorem tryShell_of_working {output : ProgramOutput} (hfilter : c.filter host config = .ok filter)
    (hcan : (programs (c.shellName config) ["--version"]).run t = (.ok output, t)) :
    (tryShell programs (chosenShell? config c filter)).runOn t = (.ok (), t) := by
  by_cases hneeds : c.NeedsShell host config
  · rw [(needsShell_iff hfilter).mp hneeds, tryShell, Shell.probe, runOn_bind, runOn_orFail, hcan]
    rfl
  · rw [chosenShell?_of_not_needsShell hfilter hneeds]
    rfl

/-- A disabled check reads no files. -/
theorem reader?_of_disabled (hd : "syntax" ∈ config.checks.disabled) (shell : Option String)
    (cand : Candidate) : Inspection.reader? config shell cand = none := by
  cases hr : Inspection.reader? config shell cand with
  | none => rfl
  | some name => exact absurd hd (Inspection.reader?_eq_some_iff.mp hr).2.2

/-- The shell and the programs have no part in the work on the candidates. -/
theorem inspectAll_of_disabled (hd : "syntax" ∈ config.checks.disabled) (programs : Programs)
    (shell : Option String) (jobs : Option Nat) (cs : List Candidate) :
    inspectAll (host.withPrograms programs) config shell jobs cs =
      inspectAll host config none jobs cs := by
  have hinspect : inspect (host.withPrograms programs) config shell = inspect host config none := by
    funext cand
    simp only [inspect, Inspection.checked, Inspection.ask, reader?_of_disabled hd]
    rfl
  rw [inspectAll, inspectAll, hinspect]
  rfl

/-- What is logged about the checks does not tell of the shell either. -/
theorem startLog_of_disabled (hd : "syntax" ∈ config.checks.disabled) (shell : Option String)
    (cs : List Candidate) : startLog config shell cs = startLog config none cs := by
  have hchecks : (config.registered shell).checks = (config.registered none).checks := by
    refine List.filter_congr fun check _ => ?_
    cases check with
    | shellSyntax => simp [Settings.enables, Config.registered, Config.settings, Check.name, hd]
    | _ => rfl
  rw [startLog, startLog, hchecks]

theorem proceed_of_disabled (hd : "syntax" ∈ config.checks.disabled) (programs : Programs)
    (shell : Option String) :
    c.proceed (host.withPrograms programs) r config filter shell =
      c.proceed host r config filter none := by
  simp only [CheckRequest.proceed, inspectAll_of_disabled hd, startLog_of_disabled hd shell]
  rfl

theorem run_of_disabled (hc : r.command = .check c) (hconfig : host.loadConfig t r = .ok config)
    (hd : "syntax" ∈ config.checks.disabled) (hfilter : c.filter host config = .ok filter)
    (hshell : (tryShell programs (chosenShell? config c filter)).runOn t = (.ok (), t)) :
    (((host.withPrograms programs).run r).run t).1.withoutLog =
      host.shown r ((c.proceed host r config filter none).runOn t).1 := by
  have hrun :=
    @runOn_runCheck_of_ready (host.withPrograms programs) r c t config filter t hconfig
      hfilter hshell
  rw [withoutLog_run, perform_check _ hc, hrun, proceed_of_disabled hd]
  rfl

/-- A run whose shell cannot be started says so and does nothing else. -/
theorem run_of_broken {e : IoError} (hc : r.command = .check c)
    (hconfig : host.loadConfig t r = .ok config) (hneeds : c.NeedsShell host config)
    (hbroken : ((programs (c.shellName config) ["--version"]).run t).1 = .error e) :
    (((host.withPrograms programs).run r).run t).1.withoutLog =
      host.shown r (.error (.validatorUnavailable (c.shellName config) e)) := by
  obtain ⟨filter, hfilter, _⟩ := hneeds.2.2
  have hchosen := (needsShell_iff hfilter).mp hneeds
  rcases hr : (programs (c.shellName config) ["--version"]).run t with ⟨e' | output, t'⟩
  · rw [hr] at hbroken
    cases hbroken
    have htry : (tryShell programs (chosenShell? config c filter)).runOn t =
        (.error (.validatorUnavailable (c.shellName config) e), t') := by
      rw [hchosen, tryShell, Shell.probe, runOn_bind, runOn_orFail, hr]
    have hstops : SetupStops (host.withPrograms programs) r c t
        (.validatorUnavailable (c.shellName config) e) := .shell hconfig hfilter htry
    exact run_of_stops hc hstops
  · rw [hr] at hbroken
    cases hbroken

end Runs

/-! ## What the user can tell apart -/

/-- Once the shell is settled, no run ends for want of one. -/
theorem title_of_proceed {host : Host} {r : Request} {c : CheckRequest} {config : Config}
    {filter : Filter} {shell : Option String} {t : FileTree} {f : Failure}
    (h : ((c.proceed host r config filter shell).runOn t).1 = .error f) : f.title ≠
      "ValidatorUnavailable" := by
  rw [CheckRequest.proceed, Course.runOn_bind, Course.runOn_search] at h
  cases hcs : findCandidates t host.cwd filter (c.recursive || config.scan.recursive) c.path with
  | error f' =>
    rw [hcs] at h
    cases h
    rcases bind_eq_error hcs with hscan | ⟨candidates, _, hempty⟩
    · rcases scan_error hscan with rfl | rfl
      · simp [Failure.title]
      · simp [Failure.title]
    · split at hempty
      · cases hempty
        simp [Failure.title]
      · cases hempty
  | ok candidates =>
    rw [hcs] at h
    simp only [Course.runOn_bind, Course.runOn_traced, Course.runOn_action, Traced.runOn_say] at h
    obtain ⟨e, rfl⟩ := conclude_failsOnly _ _ _ _ (Prod.ext h rfl)
    simp [Failure.title]

namespace Report

/-- The headline stands in front of a colon. -/
theorem exists_failure_eq (colored : Bool) : ∃ front : List Char, ∀ f, ∃ back : List Char,
    (failure colored f).toList = front ++ (f.title.toList ++ ':' :: back) := by
  cases colored with
  | false =>
    refine ⟨"✖ ".toList, fun f => ?_⟩
    simp only [failure, problem, paint, Bool.false_eq_true, if_false, String.toList_append,
      List.append_assoc]
    exact ⟨_, rfl⟩
  | true =>
    refine ⟨(String.join ([Style.bold, .red].map Style.start)).toList ++ "✖ ".toList, fun f => ?_⟩
    simp only [failure, problem, paint, String.toList_append, List.append_assoc, if_true]
    exact ⟨_, rfl⟩

theorem title_ne_colon (f : Failure) : ∀ ch ∈ f.title.toList, ch ≠ ':' := by
  cases f <;> simp [Failure.title]

/-- Failures with the same report have the same headline. -/
theorem title_eq_of_failure_eq {colored : Bool} {f g : Failure}
    (h : failure colored f = failure colored g) :
    f.title = g.title := by
  obtain ⟨front, hfront⟩ := exists_failure_eq colored
  obtain ⟨back, hf⟩ := hfront f
  obtain ⟨back', hg⟩ := hfront g
  rw [h, hg, List.append_cancel_left_eq] at hf
  -- no headline has a colon, so it ends where the first colon stands
  have htake : ∀ (f : Failure) (back : List Char),
      (f.title.toList ++ ':' :: back).takeWhile (· != ':') = f.title.toList := by
    intro f back
    rw [List.takeWhile_append_of_pos (by simpa using title_ne_colon f)]
    simp
  have htitles := congrArg (List.takeWhile (· != ':')) hf
  rw [htake, htake] at htitles
  exact (String.toList_inj.mp htitles).symm

theorem failure_ne_empty (colored : Bool) (f : Failure) : failure colored f ≠ "" := by
  intro h
  obtain ⟨front, hfront⟩ := exists_failure_eq colored
  obtain ⟨back, hf⟩ := hfront f
  rw [h] at hf
  simp at hf

end Report

/-- What a user sees of a run whose shell is settled is not what one sees when the shell cannot be
started. -/
theorem shown_proceed_ne (host : Host) (r : Request) (c : CheckRequest) (config : Config)
    (filter : Filter) (t : FileTree) (shell : String) (e : IoError) :
    host.shown r ((c.proceed host r config filter none).runOn t).1 ≠
      host.shown r (.error (.validatorUnavailable shell e)) := by
  intro h
  have hstderr := congrArg RunResult.stderr h
  cases hr : ((c.proceed host r config filter none).runOn t).1 with
  | error f =>
    rw [hr] at hstderr
    exact title_of_proceed hr (Report.title_eq_of_failure_eq hstderr)
  | ok outlet =>
    rw [hr] at hstderr
    exact Report.failure_ne_empty _ _ hstderr.symm

/-- The request of a check without its syntax check. -/
def Request.withoutSyntax (r : Request) (c : CheckRequest) : Request :=
  { r with command := .check { c with noSyntax := true } }

section Law

variable {host : Host} {r : Request} {c : CheckRequest} {t : FileTree} {config : Config}
  {programs can cannot : Programs} {output : ProgramOutput} {e : IoError}

/-- A run whose shell can be started, and asking it for its version changes no files, ends as if
syntax checks were switched off. -/
theorem run_of_working (hc : r.command = .check c) (hconfig : host.loadConfig t r = .ok config)
    (hd : "syntax" ∈ config.checks.disabled)
    (hcan : (can (c.shellName config) ["--version"]).run t = (.ok output, t))
    (programs : Programs) :
    (((host.withPrograms can).run r).run t).1.withoutLog =
      (((host.withPrograms programs).run (r.withoutSyntax c)).run t).1.withoutLog := by
  have hc' : (r.withoutSyntax c).command = .check { c with noSyntax := true } := rfl
  cases hfilter : c.filter host config with
  | error f =>
    have hstops : SetupStops (host.withPrograms can) r c t f := .filter hconfig hfilter
    have hstops' : SetupStops (host.withPrograms programs) (r.withoutSyntax c)
        { c with noSyntax := true } t
        f := .filter hconfig hfilter
    rw [run_of_stops hc hstops, run_of_stops hc' hstops']
    rfl
  | ok filter =>
    have hnone : chosenShell? config { c with noSyntax := true } filter = none := by
      simp [chosenShell?]
    rw [run_of_disabled hc hconfig hd hfilter (tryShell_of_working hfilter hcan),
      @run_of_disabled host (r.withoutSyntax c) _ t config filter programs hc' hconfig hd hfilter
        (by rw [hnone]; rfl)]
    rfl

/-- Where the shell is tried, it makes a difference whether it can be started. -/
theorem run_ne_of_needsShell (hc : r.command = .check c)
    (hconfig : host.loadConfig t r = .ok config) (hd : "syntax" ∈ config.checks.disabled)
    (hcan : (can (c.shellName config) ["--version"]).run t = (.ok output, t))
    (hcannot : ((cannot (c.shellName config) ["--version"]).run t).1 = .error e)
    (hneeds : c.NeedsShell host config) :
    (((host.withPrograms can).run r).run t).1.withoutLog ≠
      (((host.withPrograms cannot).run r).run t).1.withoutLog := by
  obtain ⟨filter, hfilter, _⟩ := hneeds.2.2
  have hshell := tryShell_of_working hfilter hcan
  rw [run_of_disabled hc hconfig hd hfilter hshell, run_of_broken hc hconfig hneeds hcannot]
  exact shown_proceed_ne host r c config filter t _ e

/-- Where the shell is not tried, the programs have no influence, not even on the log. -/
theorem run_withPrograms_of_not_needsShell (hc : r.command = .check c)
    (hconfig : host.loadConfig t r = .ok config) (hd : "syntax" ∈ config.checks.disabled)
    (hneeds : ¬c.NeedsShell host config) (programs : Programs) :
    ((host.withPrograms programs).run r).run t = (host.run r).run t := by
  have hrun : ExceptT.run (runCheck (host.withPrograms programs) r c) t =
      ExceptT.run (runCheck host r c) t := by
    refine Course.bind_congr_on (x := host.configure r) fun config' t' hx => ?_
    rw [Course.runOn_configure, hconfig] at hx
    cases hx
    refine Course.bind_congr_on (x := ofExcept (c.filter host config)) fun filter t' hx => ?_
    rw [Course.runOn_action, runOn_ofExcept] at hx
    obtain ⟨hfilter, rfl⟩ := Prod.ext_iff.mp hx
    simp only [chosenShell?_of_not_needsShell hfilter hneeds, proceed_of_disabled hd]
    rfl
  rw [← perform_check (host.withPrograms programs) hc, ← perform_check host hc] at hrun
  simp only [Host.run, StateT.run, hrun]
  rfl

/-- Whether a run with the syntax check disabled depends on its shell. What the user sees is the
same with a shell that can be started and with one that cannot exactly if the run does not try its
shell, for one of the reasons in `NeedsShell`. A run that tries a shell that it cannot start says so
and reports nothing. With a shell that can be started, the user sees what any programs give without
syntax checks, but for the log. -/
theorem run_syntaxDisabled (hc : r.command = .check c) (hconfig : host.loadConfig t r = .ok config)
    (hd : "syntax" ∈ config.checks.disabled)
    (hcan : (can (c.shellName config) ["--version"]).run t = (.ok output, t))
    (hcannot : ((cannot (c.shellName config) ["--version"]).run t).1 = .error e) :
    let seen (programs : Programs) (r : Request) := (((host.withPrograms programs).run r).run t).1
    (seen can r = seen cannot r ↔ ¬c.NeedsShell host config) ∧
    ((seen can r).withoutLog = (seen cannot r).withoutLog ↔ ¬c.NeedsShell host config) ∧
    (c.NeedsShell host config → (seen cannot r).withoutLog =
      host.shown r (.error (.validatorUnavailable (c.shellName config) e))) ∧
    ∀ programs, (seen can r).withoutLog = (seen programs (r.withoutSyntax c)).withoutLog := by
  intro seen
  have hdiffer := run_ne_of_needsShell hc hconfig hd hcan hcannot
  have hsame (hneeds : ¬c.NeedsShell host config) : seen can r = seen cannot r := by
    simp only [seen, run_withPrograms_of_not_needsShell hc hconfig hd hneeds]
  refine ⟨⟨fun he hneeds => ?_, hsame⟩, ⟨fun he hneeds => hdiffer hneeds he, fun hneeds => ?_⟩,
    fun hneeds => ?_, ?_⟩
  · exact hdiffer hneeds (congrArg RunResult.withoutLog he)
  · rw [hsame hneeds]
  · exact run_of_broken hc hconfig hneeds hcannot
  · exact run_of_working hc hconfig hd hcan

end Law

theorem FileTree.isFile_of_mode? {t : FileTree} {cwd : Location} {path : String} {mode : Nat}
    (h : t.mode? cwd path = some mode) : t.isFile cwd path = true := by
  unfold mode? at h
  split at h
  · next hentry => rw [isFile, hentry]
  · cases h

/-- The text of a configuration that disables the syntax check. -/
def disablingText : String :=
  "[checks]\ndisabled = [\"syntax\"]\n"

def disablingConfig : Config where
  checks := { disabled := ["syntax"] }

/-- A project with this configuration and a script. -/
def disablingProject : FileTree :=
  ⟨[([".shell-guard.toml".toList], .file disablingText.toUTF8 0o644),
    ([['a', '.', 's', 'h']], .file "#!/bin/bash\n# Deploys.\nset -euo pipefail\n".toUTF8 0o755)]⟩

theorem loadConfig_disablingProject :
    Host.loadConfig {} disablingProject { command := .check {} } = .ok disablingConfig := by
  have hw : disablingProject.WellFormed := by decide
  have hg : disablingProject.get? [".shell-guard.toml".toList] =
      some (.file disablingText.toUTF8 0o644) := rfl
  have hpath : Location.toPath [".shell-guard.toml".toList] = "/.shell-guard.toml" := by decide
  obtain ⟨hread, hmode⟩ := hw.file_toPath hg (by decide) []
  rw [hpath] at hread hmode
  have htext : (Host.configFiles {} disablingProject).read "/.shell-guard.toml" =
      .ok disablingText := by
    show disablingProject.readText [] "/.shell-guard.toml" = .ok disablingText
    rw [FileTree.readText, hread]
    simp only [bind, Except.bind, Utf8.decode?_toUTF8]
    rfl
  have hfile : disablingProject.isFile [] "/.shell-guard.toml" = true :=
    FileTree.isFile_of_mode? hmode
  have hconfig : Config.ofText disablingText = .ok disablingConfig := by cbv
  have hparse : Config.parse disablingText = .ok disablingConfig := by
    unfold Config.parse
    rw [hconfig]
    rfl
  have hcandidates : Config.candidates (Host.configFiles {} disablingProject) =
      ["/.shell-guard.toml"] := by
    decide
  have hfirst : (Config.candidates (Host.configFiles {} disablingProject)).find?
      (Host.configFiles {} disablingProject).isFile = some "/.shell-guard.toml" := by
    rw [hcandidates]
    exact List.find?_cons_of_pos hfile
  have hload : Config.load (Host.configFiles {} disablingProject) =
      Config.loadFrom (Host.configFiles {} disablingProject) "/.shell-guard.toml" := by
    rw [Config.load, hfirst]
  have hfrom : Config.loadFrom (Host.configFiles {} disablingProject) "/.shell-guard.toml" =
      .ok { config := disablingConfig, source := some "/.shell-guard.toml" } := by
    unfold Config.loadFrom
    rw [htext]
    exact bind_eq_ok_iff.mpr ⟨_, rfl, bind_eq_ok_iff.mpr ⟨_, hparse, rfl⟩⟩
  rw [Host.loadConfig, if_neg Bool.false_ne_true, Host.findConfig]
  simp only [hload, hfrom]
  rfl

/-- Programs that do nothing but end well. -/
def idlePrograms : Programs := fun _ _ => pure (.ok { status := .code 0 })

theorem needsShell_disablingProject : CheckRequest.NeedsShell {} {} disablingConfig := by
  refine ⟨rfl, rfl, ⟨["sh", "py"], []⟩, ?_, by decide⟩
  cbv

/-- The run of the project ends as without syntax checks, or for want of its shell. -/
theorem run_syntaxDisabled_disablingProject :
    let seen (programs : Programs) (c : CheckRequest) :=
      (((Host.withPrograms {} programs).run { command := .check c }).run
        disablingProject).1.withoutLog
    seen idlePrograms {} = seen noPrograms { noSyntax := true } ∧
      seen noPrograms {} =
        Host.shown {} { command := .check {} }
          (.error (.validatorUnavailable "bash" .notFound)) := by
  obtain ⟨_, _, hbroken, hworks⟩ :=
    @run_syntaxDisabled {} { command := .check {} } {} disablingProject
    disablingConfig idlePrograms noPrograms _ .notFound rfl loadConfig_disablingProject
      (by decide) rfl rfl
  exact ⟨hworks noPrograms, hbroken needsShell_disablingProject⟩

/-- A run with the syntax check disabled can depend on whether its shell can be started, even if the
log does not count. -/
theorem not_run_eq_disablingProject :
    ¬∀ (host : Host) (r : Request) (c : CheckRequest) (t : FileTree) (config : Config)
        (can cannot : Programs) (output : ProgramOutput) (e : IoError),
      r.command = .check c → host.loadConfig t r = .ok config → "syntax" ∈ config.checks.disabled →
        (can (c.shellName config) ["--version"]).run t = (.ok output, t) →
        ((cannot (c.shellName config) ["--version"]).run t).1 = .error e →
        (((host.withPrograms can).run r).run t).1.withoutLog =
          (((host.withPrograms cannot).run r).run t).1.withoutLog := by
  intro h
  have heq := h {} { command := .check {} } {} disablingProject disablingConfig idlePrograms
    noPrograms
    { status := .code 0 } .notFound rfl loadConfig_disablingProject (by decide) rfl rfl
  exact @run_ne_of_needsShell {} { command := .check {} } {} disablingProject disablingConfig
    idlePrograms
    noPrograms { status := .code 0 } .notFound rfl loadConfig_disablingProject (by decide) rfl rfl
    needsShell_disablingProject heq

end ScriptLint
