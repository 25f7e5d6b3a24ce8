import ScriptLint.Command.Check
import ScriptLint.Proofs.Verdict
import ScriptLint.Proofs.Workers

/-!
What comes of a candidate in the hands of a worker. Main statements: `inspect_passes`, from what
holds of single steps to what holds of the work on a candidate, and `inspect_passes_of_keeps`:
where programs write nothing, the result is the one of the analysis on the files as they are.
-/

namespace ScriptLint

/-! ## Settings with another validator -/

namespace Settings

variable {settings : Settings} {validator : Option Validator} {extension : String}

/-- The settings with another validator, or without one. -/
def validating (settings : Settings) (validator : Option Validator) : Settings :=
  { settings with validator }

/-- Only the syntax check asks the validator. -/
theorem evaluate_validating {check : Check} (h : check ≠ .shellSyntax) (script : Script) :
    check.evaluate (settings.validating validator) script = check.evaluate settings script := by
  cases check with
  | shellSyntax => exact absurd rfl h
  | _ => rfl

theorem checksFor_validating
    (h : Check.shellSyntax ∈ (settings.validating validator).checksFor extension ↔
      Check.shellSyntax ∈ settings.checksFor extension) :
    (settings.validating validator).checksFor extension = settings.checksFor extension := by
  simp only [checksFor, checks, List.filter_filter]
  refine List.filter_congr fun check _ => ?_
  by_cases hcheck : check = .shellSyntax
  · subst hcheck
    rw [mem_checksFor, mem_checksFor] at h
    rw [Bool.eq_iff_iff, Bool.and_eq_true_iff, Bool.and_eq_true_iff]
    exact and_comm.trans (h.trans and_comm)
  · have henables : (settings.validating validator).enables check = settings.enables check := by
      cases check with
      | shellSyntax => exact absurd rfl hcheck
      | _ => rfl
    rw [henables]

/-- The findings on a script depend on what the validator says about its file only, and on that
only if the syntax check runs. -/
theorem findings_validating (settings : Settings) {validator : Option Validator} {script : Script}
    (h : Check.shellSyntax ∈ (settings.validating validator).checksFor script.extension ↔
      Check.shellSyntax ∈ settings.checksFor script.extension)
    (hv : Check.shellSyntax ∈ settings.checksFor script.extension →
      validator.map (· script.path) = settings.validator.map (· script.path)) :
    (settings.validating validator).findings script = settings.findings script := by
  rw [findings, findings, checksFor_validating h]
  refine List.flatMap_congr fun check hm => ?_
  by_cases hcheck : check = .shellSyntax
  · subst hcheck
    have hanswers := hv hm
    simp only [Check.evaluate, syntaxFindings, validating]
    cases hs : settings.validator <;> cases validator <;> simp_all
  · exact evaluate_validating hcheck script

end Settings

/-! ## Settings of a run -/

/-- The settings of a run whose shell reads the files as they are. -/
def checkSettings (config : Config) (programs : Programs) (shell : Option String) (t : FileTree) :
    Settings :=
  config.settings (shell.map fun shell path => ((Shell.validate programs shell path).run t).1)

namespace Inspection

variable {config : Config} {shell : Option String} {c : Candidate}

theorem reader?_eq_some_iff {name : String} :
    reader? config shell c = some name ↔
      shell = some name ∧ c.extension = "sh" ∧ "syntax" ∉ config.checks.disabled := by
  have hmem : ((config.registered shell).checksFor c.extension).contains .shellSyntax = true ↔
      c.extension = "sh" ∧ "syntax" ∉ config.checks.disabled ∧ shell.isSome = true := by
    rw [List.contains_iff_mem, Settings.shellSyntax_mem_checksFor]
    simp [Config.registered, Config.settings]
  simp only [reader?, hmem]
  constructor
  · intro h
    split at h
    · next hm => exact ⟨h, hm.1, hm.2.1⟩
    · cases h
  · rintro ⟨rfl, he, hd⟩
    exact if_pos ⟨he, hd, rfl⟩

theorem isSome_reader? :
    (reader? config shell c).isSome = true ↔
      shell.isSome = true ∧ c.extension = "sh" ∧ "syntax" ∉ config.checks.disabled := by
  simp only [Option.isSome_iff_exists, reader?_eq_some_iff, exists_and_right]

/-- It is enough to have the shell's answer about the candidate. -/
theorem findings_answered (programs : Programs) (t : FileTree) (text : List Char)
    (mode : Option Nat) :
    (config.settings (((reader? config shell c).map fun shell =>
        ((Shell.validate programs shell c.path).run t).1).map fun answer _ => answer)).findings
      { path := c.path, extension := c.extension, text, mode } =
    (checkSettings config programs shell t).findings
      { path := c.path, extension := c.extension, text, mode } := by
  refine (checkSettings config programs shell t).findings_validating ?_ fun hm => ?_
  · simp only [Settings.shellSyntax_mem_checksFor, Settings.validating, checkSettings,
      Config.settings, Option.isSome_map, isSome_reader?]
    tauto
  · obtain ⟨he, hd, hsome⟩ := Settings.shellSyntax_mem_checksFor.mp hm
    have hreader : reader? config shell c = shell := by
      cases hs : shell with
      | none =>
        rw [hs] at hsome
        cases hsome
      | some name => exact reader?_eq_some_iff.mpr ⟨rfl, he, hd⟩
    rw [hreader]
    simp only [checkSettings, Config.settings, Option.map_map, Function.comp_def]

end Inspection

/-! ## Results -/

/-- What can become of a candidate, if its text, its mode and the shell's answer are known. -/
inductive Inspected (config : Config) (c : Candidate) (text : Except String (List Char) → Prop)
    (mode : Option Nat → Prop) (answer : Option (Except IoError Validation) → Prop) :
      FileResult → Prop
  | unread {message : String} (ht : text (.error message)) :
      Inspected config c text mode answer
        { path := c.path, findings := [{ check := unreadable, severity := .critical, message }] }
  | ignored {found : List Char} (ht : text (.ok found)) (hi : isIgnored found = true) :
      Inspected config c text mode answer { path := c.path, ignored := true }
  | checked {found : List Char} {m : Option Nat} {a : Option (Except IoError Validation)}
      (ht : text (.ok found)) (hi : isIgnored found = false) (hm : mode m) (ha : answer a) :
      Inspected config c text mode answer
        { path := c.path
          findings := (config.settings (a.map fun a _ => a)).findings
            { path := c.path, extension := c.extension, text := found, mode := m } }

section Steps

variable {W : Type} {L : Logic W} {P : W → Prop} {host : Host} {config : Config}
  {shell : Option String} {c : Candidate} {text : Except String (List Char) → Prop}
  {mode : Option Nat → Prop} {answer : Option (Except IoError Validation) → Prop}

/-- What each step on a candidate keeps, the work on it keeps. -/
theorem inspect_passes (hsay : ∀ entries, L.triple P (Traced.say entries) fun _ => P)
    (hread : L.triple P (do return c.text (← get) host.cwd) fun found w => text found ∧ P w)
    (hmode : L.triple P (do return (← get).mode? host.cwd c.path) fun m w => mode m ∧ P w)
    (hcall : ∀ name, Inspection.reader? config shell c = some name →
      L.triple P
        (do Traced.tell [.called name ["-n", c.path]]; Shell.validate host.programs name c.path)
        fun a w => answer (some a) ∧ P w)
    (hnone : Inspection.reader? config shell c = none → answer none) :
    (inspect host config shell c).Passes L P (Inspected config c text mode answer) := by
  have hsay (entries : List LogEntry) : (Job.once (Traced.say entries)).Passes L P fun _ => True :=
    .once (L.imp (hsay entries) fun _ _ hw => ⟨trivial, hw⟩)
  have hask : (Inspection.ask host config shell c).Passes L P answer := by
    unfold Inspection.ask
    cases hr : Inspection.reader? config shell c with
    | none => exact .pure (hnone hr)
    | some name =>
      refine Job.Passes.bind (Q := fun a => answer (some a)) ?_ fun a ha => .pure ha
      refine Job.Passes.bind (.once (hcall name hr)) fun a ha => ?_
      exact (hsay _).bind fun _ _ => .pure ha
  unfold inspect
  refine Job.Passes.bind (.once hread) fun found hfound => ?_
  cases found with
  | error message => exact (hsay _).bind fun _ _ => .pure (.unread hfound)
  | ok found =>
    dsimp only
    cases hi : isIgnored found with
    | true => exact (hsay _).bind fun _ _ => .pure (.ignored hfound hi)
    | false =>
      refine Job.Passes.bind (.once hmode) fun m hm => hask.bind fun a ha => ?_
      exact (hsay _).bind fun _ _ => .pure (.checked hfound hi hm ha)

/-- Whatever the result. -/
theorem inspect_passes_any (hsay : ∀ entries, L.triple P (Traced.say entries) fun _ => P)
    (hread : L.triple P (do return c.text (← get) host.cwd) fun _ => P)
    (hmode : L.triple P (do return (← get).mode? host.cwd c.path) fun _ => P)
    (hcall : ∀ name, Inspection.reader? config shell c = some name →
      L.triple P
        (do Traced.tell [.called name ["-n", c.path]]; Shell.validate host.programs name c.path)
        fun _ => P) :
    (inspect host config shell c).Passes L P fun _ => True := by
  have hany {α : Type} {x : Traced α} (hx : L.triple P x fun _ => P) : L.triple P x fun _ w =>
      True ∧ P w :=
    L.imp hx fun _ _ hw => ⟨trivial, hw⟩
  have hpasses : (inspect host config shell c).Passes L P
      (Inspected config c (fun _ => True) (fun _ => True) fun _ => True) :=
    inspect_passes hsay (hany hread) (hany hmode) (fun name hr => hany (hcall name hr)) fun _ =>
      trivial
  exact hpasses.mono fun _ _ => trivial

end Steps

/-! ## Programs that write nothing -/

/-- Programs that write no file. -/
def WriteNothing (programs : Programs) : Prop :=
  ∀ program args t, ((programs program args).run t).2 = t

theorem writeNothing_noPrograms : WriteNothing noPrograms :=
  fun _ _ _ => rfl

theorem WriteNothing.run_validate {programs : Programs} (hp : WriteNothing programs)
    (shell path : String) (t : FileTree) : ((Shell.validate programs shell path).run t).2 = t :=
  hp shell _ t

section Runs

variable {host : Host} {config : Config} {shell : Option String} {c : Candidate}
  {cs : List Candidate} {t : FileTree}

/-- The result on a candidate whose text, mode and answer are those on the files as they are. -/
theorem eq_analyze_of_inspected {r : FileResult}
    (h : Inspected config c (· = c.text t host.cwd) (· = t.mode? host.cwd c.path)
      (· = (Inspection.reader? config shell c).map fun shell =>
        ((Shell.validate host.programs shell c.path).run t).1) r) :
    r = analyze (checkSettings config host.programs shell t) t host.cwd c := by
  unfold analyze
  cases h with
  | unread ht => rw [← ht]
  | ignored ht hi =>
    rw [← ht]
    simp only [hi, if_true]
  | checked ht hi hm ha =>
    subst hm ha
    rw [← ht, Inspection.findings_answered]
    simp only [hi, Bool.false_eq_true, if_false]
    rfl

theorem inspect_passes_of_keeps (hp : WriteNothing host.programs) (config : Config)
    (shell : Option String) (t : FileTree) (c : Candidate) :
    (inspect host config shell c).Passes .ofRun (fun w => w.2 = t)
      (· = analyze (checkSettings config host.programs shell t) t host.cwd c) := by
  refine Job.Passes.mono (inspect_passes ?_ ?_ ?_ ?_ ?_) fun r hr => eq_analyze_of_inspected hr
  · exact fun _ _ _ ht => ht
  · rintro _ _ rfl
    exact ⟨rfl, rfl⟩
  · rintro _ _ rfl
    exact ⟨rfl, rfl⟩
  · rintro name hr _ _ rfl
    rw [hr]
    exact ⟨rfl, hp.run_validate name c.path _⟩
  · intro hr
    rw [hr]
    rfl

/-- Where programs write nothing, neither the number of the workers nor their turns matter: the
results are those of the analysis on the files as they are, and the files stay so. -/
theorem runOn_inspectAll_of_keeps (hp : WriteNothing host.programs) (config : Config)
    (shell : Option String) (jobs : Option Nat) (cs : List Candidate) (t : FileTree) :
    (inspectAll host config shell jobs cs).runOn t =
      (analyzeAll (checkSettings config host.programs shell t) t host.cwd cs, t) := by
  obtain ⟨hresults, htree⟩ := Logic.ofRun.work_passes
    (fun c _ => inspect_passes_of_keeps hp config shell t c) (jobs.getD host.workers) host.turns
      [] t rfl
  have hmap : List.Forall₂ (· = ·)
      (analyzeAll (checkSettings config host.programs shell t) t host.cwd cs)
      ((inspectAll host config shell jobs cs).runOn t).1 :=
    List.forall₂_map_left_iff.mpr (hresults.imp fun _ _ h => h.symm)
  rw [List.forall₂_eq_eq_eq] at hmap
  exact Prod.ext hmap.symm htree

end Runs

/-! ## A worker alone -/

section Alone

variable (host : Host) (config : Config) (shell : Option String) (c : Candidate) (t : FileTree)

namespace Inspection

/-- The files after a shell has read a candidate, if one does. -/
def treeAfter : FileTree :=
  match reader? config shell c with
  | none => t
  | some name => ((Shell.validate host.programs name c.path).run t).2

theorem runOn_finish_ask :
    (ask host config shell c).finish.runOn t =
      ((reader? config shell c).map fun name =>
        ((Shell.validate host.programs name c.path).run t).1,
        treeAfter host config shell c t) := by
  unfold ask treeAfter
  cases reader? config shell c with
  | none => rfl
  | some name =>
    show (askShell host c name >>= fun answer => pure (some answer)).finish.runOn t = _
    simp only [askShell, Job.finish_bind, Traced.runOn_bind, Job.finish_once]
    rfl

theorem runOn_finish_checked (text : List Char) :
    (checked host config shell c text).finish.runOn t =
      ({ path := c.path
         findings := (checkSettings config host.programs shell t).findings
           (c.script t host.cwd text) },
        treeAfter host config shell c t) := by
  rw [Candidate.script, ← findings_answered]
  unfold checked
  rw [Job.finish_bind, Traced.runOn_bind, Job.finish_once, Traced.runOn_look]
  rw [Job.finish_bind, Traced.runOn_bind, runOn_finish_ask]
  rfl

end Inspection

/-- What a worker does with a candidate if nobody disturbs it: the analysis of the file as it is,
and what the shell does to the files. -/
def inspectAlone : StateM FileTree FileResult := fun t =>
  (analyze (checkSettings config host.programs shell t) t host.cwd c,
    match c.text t host.cwd with
    | .error _ => t
    | .ok text => if isIgnored text then t else Inspection.treeAfter host config shell c t)

theorem runOn_finish_inspect :
    (inspect host config shell c).finish.runOn t = (inspectAlone host config shell c).run t := by
  have hrun : (inspectAlone host config shell c).run t = inspectAlone host config shell c t := rfl
  rw [hrun, inspectAlone]
  unfold inspect analyze
  rw [Job.finish_bind, Traced.runOn_bind, Job.finish_once, Traced.runOn_look]
  cases c.text t host.cwd with
  | error message => rfl
  | ok text =>
    dsimp only
    cases isIgnored text with
    | true => rfl
    | false => exact Inspection.runOn_finish_checked host config shell c t text

/-- A single worker takes the candidates one by one. -/
theorem runOn_inspectAll_of_single {jobs : Option Nat} (h : jobs.getD host.workers ≤ 1)
    (cs : List Candidate) :
    (inspectAll host config shell jobs cs).runOn t =
      (cs.mapM (inspectAlone host config shell)).run t := by
  rw [inspectAll, work_of_single h, List.mapM_map]
  exact Traced.runOn_mapM (runOn_finish_inspect host config shell) cs t

end Alone

/-! ## Programs in general -/

section Calls

variable {host : Host} {config : Config} {shell : Option String} {c : Candidate} {t : FileTree}

/-- The paths of the files that shells have been called to read, in the order of the calls. -/
def handedPaths (events : List Event) : List String :=
  events.filterMap fun
    | .called _ ["-n", path] => some path
    | _ => none

theorem handedPaths_append (events events' : List Event) :
    handedPaths (events ++ events') = handedPaths events ++ handedPaths events' :=
  List.filterMap_append

theorem handedPaths_logged (entries : List LogEntry) : handedPaths (entries.map .logged) = [] := by
  simp [handedPaths, List.filterMap_map]

/-- What a shell does to the files while it reads some of them. -/
def shellEffects (programs : Programs) (shell : String) (paths : List String) :
    StateM FileTree Unit :=
  paths.forM fun path => do
    let _ ← Shell.validate programs shell path

theorem run_shellEffects_concat (programs : Programs) (shell : String) (paths : List String)
    (path : String) (t : FileTree) :
    ((shellEffects programs shell (paths ++ [path])).run t).2 =
      ((Shell.validate programs shell path).run
        ((shellEffects programs shell paths).run t).2).2 := by
  induction paths generalizing t with
  | nil => rfl
  | cons first paths ih => exact ih ((Shell.validate programs shell first).run t).2

/-- The calls of the shell make up all that has happened to the files. Without a shell there are
none. -/
def Replays (programs : Programs) (shell : Option String) (t : FileTree)
    (w : List Event × FileTree) : Prop :=
  match shell with
  | none => handedPaths w.1 = [] ∧ w.2 = t
  | some shell => w.2 = ((shellEffects programs shell (handedPaths w.1)).run t).2

/-- Events without calls change nothing of this. -/
theorem Replays.append {programs : Programs} {events events' : List Event} {t' : FileTree}
    (h : Replays programs shell t (events, t')) (hnone : handedPaths events' = []) :
    Replays programs shell t (events ++ events', t') := by
  unfold Replays at h ⊢
  simp only [handedPaths_append, hnone, List.append_nil]
  exact h

theorem inspect_passes_replays (host : Host) (config : Config) (shell : Option String)
    (t : FileTree) (c : Candidate) :
    (inspect host config shell c).Passes .ofRun (Replays host.programs shell t) fun _ => True := by
  refine inspect_passes_any ?_ ?_ ?_ ?_
  · exact fun entries es t' h => h.append (handedPaths_logged entries)
  · exact fun es t' h => h.append rfl
  · exact fun es t' h => h.append rfl
  · intro name hr es t' h
    obtain rfl := (Inspection.reader?_eq_some_iff.mp hr).1
    have hafter : t' = ((shellEffects host.programs name (handedPaths es)).run t).2 := h
    rw [Traced.runOn_told, Traced.eventsOn_told, hafter]
    simp only [Replays, handedPaths_append]
    exact (run_shellEffects_concat _ _ _ _ _).symm

/-- The files after the analysis of the candidates are those that the shell's calls leave. -/
theorem inspectAll_replays (host : Host) (config : Config) (shell : Option String)
    (jobs : Option Nat) (cs : List Candidate) (t : FileTree) :
    Replays host.programs shell t ((inspectAll host config shell jobs cs).eventsOn t,
      ((inspectAll host config shell jobs cs).runOn t).2) := by
  have hstart : Replays host.programs shell t ([], t) := by
    cases shell with
    | none => exact ⟨rfl, rfl⟩
    | some shell => rfl
  exact (Logic.ofRun.work_passes (fun c _ => inspect_passes_replays host config shell t c)
    (jobs.getD host.workers) host.turns [] t hstart).2

/-- What is known of the result on a candidate whatever others do meanwhile: its text and its mode
are those at some moments, and so is the answer of a shell that has been called, if there is one
that reads it. -/
def ResultAmong (host : Host) (config : Config) (shell : Option String) (events : List Event)
    (c : Candidate) :
    FileResult → Prop :=
  Inspected config c (fun text => ∃ t, text = c.text t host.cwd)
    (fun mode => ∃ t : FileTree, mode = t.mode? host.cwd c.path)
    fun answer => ∃ t, answer = (Inspection.reader? config shell c).map (fun shell =>
        ((Shell.validate host.programs shell c.path).run t).1) ∧
      ∀ name, Inspection.reader? config shell c = some name → .called name ["-n", c.path] ∈ events

theorem inspect_passes_within (events : List Event) :
    (inspect host config shell c).Passes (.within events) (fun _ => True)
      (ResultAmong host config shell events c) := by
  refine inspect_passes ?_ ?_ ?_ ?_ ?_
  · exact fun _ _ _ _ => trivial
  · exact fun _ t _ => ⟨⟨t, rfl⟩, trivial⟩
  · exact fun _ t _ => ⟨⟨t, rfl⟩, trivial⟩
  · intro name hr _ t hall
    rw [Traced.eventsOn_told] at hall
    refine ⟨⟨t, ?_, fun name' hr' => ?_⟩, trivial⟩
    · rw [hr]
      rfl
    · cases hr.symm.trans hr'
      exact hall (List.mem_singleton_self _)
  · intro hr
    refine ⟨{}, ?_, fun name hr' => ?_⟩
    · rw [hr]
      rfl
    · cases hr.symm.trans hr'

/-- One result for each candidate, in their order. -/
theorem inspectAll_results (host : Host) (config : Config) (shell : Option String)
    (jobs : Option Nat) (cs : List Candidate) (t : FileTree) :
    List.Forall₂
      (ResultAmong host config shell ((inspectAll host config shell jobs cs).eventsOn t)) cs
      ((inspectAll host config shell jobs cs).runOn t).1 :=
  (Logic.work_passes (.within _) (fun _ _ => inspect_passes_within _) (jobs.getD host.workers)
    host.turns
    trivial t (List.Subset.refl _)).1

end Calls

end ScriptLint
