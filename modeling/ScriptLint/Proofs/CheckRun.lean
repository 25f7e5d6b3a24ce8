import ScriptLint.Command.Run
import ScriptLint.Proofs.Failure
import ScriptLint.Proofs.Inspection
import ScriptLint.Proofs.Summary

/-!
How a check run ends. A run first settles its configuration, its filter, its shell and its
candidates, in this order, and stops at the first of these steps that fails (`SetupStops`). A run
that has all of them (`Prepares`) reports on every candidate. Main statements: `prepares_or_stops`,
one of the two holds of every run, and `exitCode_of_allPass`, `exitCode_of_someFail` and
`exitCode_of_cannotRun`, what the exit code is then.
-/

namespace ScriptLint

open ScriptLint.Action

/-- What a check run has settled when it starts to read its candidates. -/
structure Prepared where
  config : Config
  filter : Filter
  /-- The files after the shell was tried. -/
  tree : FileTree
  candidates : List Candidate

namespace Prepared

variable (p : Prepared) (host : Host) (r : Request) (c : CheckRequest)

/-- The shell that reads the scripts. -/
def shell : Option String :=
  chosenShell? p.config c p.filter

/-- The settings of the checks, if the files stay as they are. -/
def settings : Settings :=
  checkSettings p.config host.programs (p.shell c) p.tree

/-- The work of the workers on the candidates. -/
def inspection : Traced (List FileResult) :=
  inspectAll host p.config (p.shell c) c.jobs p.candidates

def results : List FileResult :=
  ((p.inspection host c).runOn p.tree).1

/-- The files after the shell has read the scripts. -/
def finalTree : FileTree :=
  ((p.inspection host c).runOn p.tree).2

/-- What has been logged and called meanwhile. -/
def events : List Event :=
  (p.inspection host c).eventsOn p.tree

def report : String :=
  let results := p.results host c
  Report.render c.format (host.reportStyle r) results (Summary.ofResults results)

/-- The file that takes the report, if there is one, can be written. -/
def Written : Prop :=
  ∀ path, c.output = some path →
    ((writeFile host.cwd path (p.report host r c)).runOn (p.finalTree host c)).1 = .ok ()

/-- Where programs write nothing, the results are those of the analysis on the files as they are. -/
theorem runOn_inspection_of_keeps (hp : WriteNothing host.programs) :
    (p.inspection host c).runOn p.tree =
      (analyzeAll (p.settings host c) p.tree host.cwd p.candidates, p.tree) :=
  runOn_inspectAll_of_keeps hp p.config (p.shell c) c.jobs p.candidates p.tree

theorem finalTree_of_keeps (hp : WriteNothing host.programs) : p.finalTree host c = p.tree :=
  congrArg Prod.snd (p.runOn_inspection_of_keeps host c hp)

end Prepared

section Setup

variable (host : Host) (r : Request) (c : CheckRequest) (t : FileTree)

/-- The candidates of a request among the files. -/
def CheckRequest.scan (config : Config) (filter : Filter) : Except Failure (List Candidate) :=
  ScriptLint.scan t host.cwd filter (c.recursive || config.scan.recursive) c.path

/-- All that a run has to settle before it reads its candidates is settled. -/
structure Prepares (p : Prepared) : Prop where
  config : host.loadConfig t r = .ok p.config
  filter : c.filter host p.config = .ok p.filter
  shell : (tryShell host.programs (p.shell c)).runOn t = (.ok (), p.tree)
  scan : c.scan host p.tree p.config p.filter = .ok p.candidates
  found : p.candidates ≠ []

theorem buildFilter_standard : buildFilter ["sh", "py"] [] = .ok ⟨["sh", "py"], []⟩ := by
  cbv

/-- Why a run stops before it reads its candidates. The steps before the one that fails went well,
and the steps after it do not matter. -/
inductive SetupStops : Failure → Prop
  | config {f : Failure} (hf : host.loadConfig t r = .error f) : SetupStops f
  | filter {config : Config} {f : Failure} (hc : host.loadConfig t r = .ok config)
      (hf : c.filter host config = .error f) : SetupStops f
  | shell {config : Config} {filter : Filter} {f : Failure} {t' : FileTree}
      (hc : host.loadConfig t r = .ok config) (hl : c.filter host config = .ok filter)
      (hf : (tryShell host.programs (chosenShell? config c filter)).runOn t = (.error f, t')) :
      SetupStops f
  | scan {config : Config} {filter : Filter} {t' : FileTree} {f : Failure}
      (hc : host.loadConfig t r = .ok config) (hl : c.filter host config = .ok filter)
      (hs : (tryShell host.programs (chosenShell? config c filter)).runOn t = (.ok (), t'))
      (hf : c.scan host t' config filter = .error f) : SetupStops f
  | found {config : Config} {filter : Filter} {t' : FileTree}
      (hc : host.loadConfig t r = .ok config) (hl : c.filter host config = .ok filter)
      (hs : (tryShell host.programs (chosenShell? config c filter)).runOn t = (.ok (), t'))
      (hf : c.scan host t' config filter = .ok []) : SetupStops (.noFilesMatched filter.extensions)

/-- All is settled, the report is written and every result passes. -/
def AllPass : Prop :=
  ∃ p, Prepares host r c t p ∧ p.Written host r c ∧
    ∀ result ∈ p.results host c, result.passed = true

/-- There is no such path, no file matches, or the report is written and some result does not
pass. -/
def SomeFail : Prop :=
  SetupStops host r c t (.pathNotFound c.path) ∨
    (∃ exts, SetupStops host r c t (.noFilesMatched exts)) ∨
    ∃ p, Prepares host r c t p ∧ p.Written host r c ∧
      ∃ result ∈ p.results host c, result.passed = false

/-- The setup stops for another reason, or the report cannot be written. -/
def CannotRun : Prop :=
  (∃ f, SetupStops host r c t f ∧ f ≠ .pathNotFound c.path ∧ ∀ exts, f ≠ .noFilesMatched exts) ∨
    ∃ p, Prepares host r c t p ∧ ¬ p.Written host r c

end Setup

variable {host : Host} {r : Request} {c : CheckRequest} {t : FileTree}

/-- Every run stops in its setup or has all that it needs. -/
theorem prepares_or_stops (host : Host) (r : Request) (c : CheckRequest) (t : FileTree) :
    (∃ p, Prepares host r c t p) ∨ ∃ f, SetupStops host r c t f := by
  cases hc : host.loadConfig t r with
  | error f => exact .inr ⟨f, .config hc⟩
  | ok config =>
    cases hl : c.filter host config with
    | error f => exact .inr ⟨f, .filter hc hl⟩
    | ok filter =>
      rcases hs : (tryShell host.programs (chosenShell? config c filter)).runOn t with ⟨f | _, t'⟩
      · exact .inr ⟨f, .shell hc hl hs⟩
      · cases hf : c.scan host t' config filter with
        | error f => exact .inr ⟨f, .scan hc hl hs hf⟩
        | ok candidates =>
          cases candidates with
          | nil => exact .inr ⟨_, .found hc hl hs hf⟩
          | cons cand others =>
            exact .inl ⟨⟨config, filter, t', cand :: others⟩, hc, hl, hs, hf, List.cons_ne_nil _ _⟩

/-! ## Steps -/

namespace Course

theorem runOn_configure (host : Host) (r : Request) (t : FileTree) :
    runOn (host.configure r) t = (host.loadConfig t r, t) := by
  simp only [Host.configure, runOn_bind, runOn_get, runOn_traced, Traced.runOn_say]
  rfl

theorem eventsOn_configure (host : Host) (r : Request) (t : FileTree) :
    eventsOn (host.configure r) t = (host.configLog t r).map .logged := by
  simp only [Host.configure, eventsOn_bind, runOn_get, runOn_traced, eventsOn_get, eventsOn_traced,
    Traced.runOn_say, Traced.eventsOn_say]
  exact List.append_nil _

theorem runOn_readyShell (programs : Programs) (shell : Option String) (t : FileTree) :
    runOn (readyShell programs shell) t = (tryShell programs shell).runOn t := by
  simp only [readyShell, runOn_bind, runOn_traced, runOn_action, Traced.runOn_tell]
  rcases (tryShell programs shell).runOn t with ⟨f | _, t'⟩
  · rfl
  · rfl

theorem runOn_search (host : Host) (filter : Filter) (recursive : Bool) (path : String)
    (t : FileTree) :
    runOn (host.search filter recursive path) t =
      (findCandidates t host.cwd filter recursive path, t) := by
  simp only [Host.search, runOn_bind, runOn_get, runOn_traced, Traced.runOn_say]
  rfl

end Course

section Candidates

variable {cwd : Location} {filter : Filter} {recursive : Bool} {path : String}

theorem findCandidates_of_error {f : Failure} (h : scan t cwd filter recursive path = .error f) :
    findCandidates t cwd filter recursive path = .error f := by
  rw [findCandidates, h]
  rfl

theorem findCandidates_of_nil (h : scan t cwd filter recursive path = .ok []) :
    findCandidates t cwd filter recursive path = .error (.noFilesMatched filter.extensions) := by
  rw [findCandidates, h]
  rfl

theorem findCandidates_of_ne_nil {cs : List Candidate}
    (h : scan t cwd filter recursive path = .ok cs)
    (hne : cs ≠ []) : findCandidates t cwd filter recursive path = .ok cs := by
  rw [findCandidates, h]
  cases cs with
  | nil => exact absurd rfl hne
  | cons cand others => rfl

end Candidates

/-- A run whose shell is ready goes on with it. -/
theorem runOn_runCheck_of_ready {config : Config} {filter : Filter} {t' : FileTree}
    (hc : host.loadConfig t r = .ok config) (hl : c.filter host config = .ok filter)
    (hs : (tryShell host.programs (chosenShell? config c filter)).runOn t = (.ok (), t')) :
    (runCheck host r c).runOn t =
      (c.proceed host r config filter (chosenShell? config c filter)).runOn t' := by
  unfold runCheck
  simp only [Course.runOn_bind, Course.runOn_configure, Course.runOn_action, runOn_ofExcept,
    Course.runOn_readyShell, hc, hl, hs]

/-- A run that stops in its setup fails as its setup does. -/
theorem runOn_runCheck_of_stops {f : Failure} (h : SetupStops host r c t f) :
    ((runCheck host r c).runOn t).1 = .error f := by
  cases h with
  | config hf =>
    unfold runCheck
    simp only [Course.runOn_bind, Course.runOn_configure, hf]
  | filter hc hf =>
    unfold runCheck
    simp only [Course.runOn_bind, Course.runOn_configure, Course.runOn_action,
      runOn_ofExcept, hc, hf]
  | shell hc hl hf =>
    unfold runCheck
    simp only [Course.runOn_bind, Course.runOn_configure, Course.runOn_action, runOn_ofExcept,
      Course.runOn_readyShell, hc, hl, hf]
  | scan hc hl hs hf =>
    rw [runOn_runCheck_of_ready hc hl hs, CheckRequest.proceed, Course.runOn_bind,
      Course.runOn_search, findCandidates_of_error hf]
  | found hc hl hs hf =>
    rw [runOn_runCheck_of_ready hc hl hs, CheckRequest.proceed, Course.runOn_bind,
      Course.runOn_search, findCandidates_of_nil hf]

/-- A run that has all it needs reports on its candidates. -/
theorem runOn_runCheck_of_prepares {p : Prepared} (h : Prepares host r c t p) :
    (runCheck host r c).runOn t = (c.conclude host r (p.results host c)).runOn
      (p.finalTree host c) := by
  rw [runOn_runCheck_of_ready h.config h.filter h.shell, CheckRequest.proceed, Course.runOn_bind,
    Course.runOn_search, findCandidates_of_ne_nil h.scan h.found]
  simp only [Course.runOn_bind, Course.runOn_traced, Course.runOn_action, Traced.runOn_say]
  rfl

theorem tryShell_failsOnly (programs : Programs) (shell : Option String) :
    FailsOnly (fun f => ∃ name e, f = .validatorUnavailable name e) (tryShell programs shell) := by
  cases shell with
  | none => exact failsOnly_pure ()
  | some name =>
    refine failsOnly_bind ?_ fun _ => failsOnly_pure ()
    intro t f t' h
    rw [runOn_orFail] at h
    split at h
    · cases h
    · cases h
      exact ⟨_, _, rfl⟩

/-- A shell can be tried with success exactly if it can be run, or if none is needed. -/
theorem tryShell_ok_iff {programs : Programs} {shell : Option String} :
    ((tryShell programs shell).runOn t).1 = .ok () ↔
      ∀ name, shell = some name → ∃ output, ((programs name ["--version"]).run t).1 =
        .ok output := by
  cases shell with
  | none => exact ⟨fun _ _ h => (Option.some_ne_none _ h.symm).elim, fun _ => rfl⟩
  | some name =>
    simp only [tryShell, Shell.probe, runOn_bind, runOn_orFail, Option.some.injEq, forall_eq']
    rcases (programs name ["--version"]).run t with ⟨e | output, t'⟩
    · simp
    · simp

/-- A run that has come to its report fails only if the system does not let it write. -/
theorem conclude_failsOnly (results : List FileResult) :
    FailsOnly (fun f => ∃ e, f = .io e) (c.conclude host r results) := by
  unfold CheckRequest.conclude
  cases c.output with
  | none => exact failsOnly_pure _
  | some path => exact failsOnly_bind (writeFile_failsOnly _ _ _) fun _ => failsOnly_pure _

/-- The setup stops with a failed check only for want of a path or of files. -/
theorem isCheckFailure_of_stops {f : Failure} (h : SetupStops host r c t f)
    (hf : f.isCheckFailure = true) :
    f = .pathNotFound c.path ∨ ∃ exts, f = .noFilesMatched exts := by
  cases h with
  | config hc =>
    rw [Host.isCheckFailure_of_loadConfig hc] at hf
    cases hf
  | filter hc hl =>
    obtain ⟨e, rfl⟩ := buildFilter_error hl
    cases hf
  | shell hc hl hs =>
    obtain ⟨name, e, rfl⟩ := tryShell_failsOnly _ _ _ _ _ hs
    cases hf
  | scan hc hl hs hn =>
    rcases scan_error hn with rfl | rfl
    · exact .inl rfl
    · cases hf
  | found hc hl hs hn => exact .inr ⟨_, rfl⟩

/-- What the user sees of a run, but for the log. -/
def RunResult.withoutLog (ran : RunResult) : RunResult :=
  { ran with log := [] }

/-- What the user sees of a run is the end of its command. -/
theorem withoutLog_run (host : Host) (r : Request) (t : FileTree) :
    ((host.run r).run t).1.withoutLog = host.shown r ((host.perform r).runOn t).1 := by
  have hrun : ((host.run r).run t).1.withoutLog =
      (host.shown r ((host.perform r).runOn t).1).withoutLog := rfl
  rw [hrun]
  cases ((host.perform r).runOn t).1 <;> rfl

theorem log_run (host : Host) (r : Request) (t : FileTree) :
    ((host.run r).run t).1.log =
      host.shownLog r (((host.perform r).eventsOn t).filterMap Event.entry?) := rfl

theorem exitCode_run (host : Host) (r : Request) (t : FileTree) :
    ((host.run r).run t).1.exitCode = (host.shown r ((host.perform r).runOn t).1).exitCode := rfl

theorem run_run_snd (host : Host) (r : Request) (t : FileTree) :
    ((host.run r).run t).2 = ((host.perform r).runOn t).2 := rfl

theorem perform_check (host : Host) (hc : r.command = .check c) :
    host.perform r = runCheck host r c := by
  rw [Host.perform, hc]

theorem perform_fmt (host : Host) {f : FmtRequest} (hf : r.command = .fmt f) :
    host.perform r = runFormat host r f := by
  rw [Host.perform, hf]

theorem perform_init (host : Host) {i : InitRequest} (hi : r.command = .init i) :
    host.perform r = runInit host r i := by
  rw [Host.perform, hi]

theorem run_of_stops {f : Failure} (hc : r.command = .check c) (h : SetupStops host r c t f) :
    ((host.run r).run t).1.withoutLog = host.shown r (.error f) := by
  rw [withoutLog_run, perform_check host hc, runOn_runCheck_of_stops h]

section Outcome

variable {p : Prepared}

/-- A run that can write its report exits as its summary says. -/
theorem exitCode_of_written (hc : r.command = .check c) (h : Prepares host r c t p)
    (hw : p.Written host r c) :
    ((host.run r).run t).1.exitCode = (Summary.ofResults (p.results host c)).exitCode := by
  have hout : ∃ outlet, ((c.conclude host r (p.results host c)).runOn (p.finalTree host c)).1 =
      .ok outlet ∧ outlet.exitCode = (Summary.ofResults (p.results host c)).exitCode := by
    unfold CheckRequest.conclude
    cases ho : c.output with
    | none => exact ⟨_, rfl, rfl⟩
    | some path =>
      have hk : ((writeFile host.cwd path (p.report host r c)).runOn (p.finalTree host c)).1 =
          .ok () :=
        hw path ho
      rcases hr : (writeFile host.cwd path (p.report host r c)).runOn
        (p.finalTree host c) with ⟨f | _, t'⟩
      · rw [hr] at hk
        cases hk
      · exact ⟨_, congrArg Prod.fst (runOn_bind_of_ok hr), rfl⟩
  obtain ⟨outlet, ho, he⟩ := hout
  rw [exitCode_run, perform_check host hc, runOn_runCheck_of_prepares h, ho]
  exact he

/-- A run that cannot write its report counts as not carried out. -/
theorem exitCode_of_not_written (hc : r.command = .check c) (h : Prepares host r c t p)
    (hw : ¬ p.Written host r c) : ((host.run r).run t).1.exitCode = .notRun := by
  obtain ⟨path, hp⟩ := Classical.not_forall.mp hw
  obtain ⟨ho, hn⟩ := Classical.not_imp.mp hp
  rcases hr : (writeFile host.cwd path (p.report host r c)).runOn (p.finalTree host c) with ⟨f | u,
    t'⟩
  · obtain ⟨e, rfl⟩ := writeFile_failsOnly _ _ _ _ _ _ hr
    have hf : ((c.conclude host r (p.results host c)).runOn (p.finalTree host c)).1 =
        .error (.io e) := by
      unfold CheckRequest.conclude
      rw [ho]
      exact congrArg Prod.fst (runOn_bind_of_error hr)
    rw [exitCode_run, perform_check host hc, runOn_runCheck_of_prepares h, hf]
    rfl
  · exact absurd (by rw [hr]) hn

end Outcome

/-- The failure for which a run stops counts as a failed check or not, and so does the exit code. -/
theorem exitCode_of_stops {f : Failure} (hc : r.command = .check c) (h : SetupStops host r c t f) :
    ((host.run r).run t).1.exitCode = if f.isCheckFailure then .checkFailed else .notRun := by
  rw [exitCode_run, perform_check host hc, runOn_runCheck_of_stops h]
  rfl

theorem exitCode_of_allPass (hc : r.command = .check c) (h : AllPass host r c t) :
    ((host.run r).run t).1.exitCode = .success := by
  obtain ⟨p, hp, hw, hall⟩ := h
  rw [exitCode_of_written hc hp hw, Summary.exitCode_ofResults_eq_success_iff]
  exact hall

theorem exitCode_of_someFail (hc : r.command = .check c) (h : SomeFail host r c t) :
    ((host.run r).run t).1.exitCode = .checkFailed := by
  rcases h with h | ⟨exts, h⟩ | ⟨p, hp, hw, result, hm, hf⟩
  · rw [exitCode_of_stops hc h]
    rfl
  · rw [exitCode_of_stops hc h]
    rfl
  · rw [exitCode_of_written hc hp hw, Summary.exitCode_ofResults_eq_checkFailed_iff]
    exact ⟨result, hm, hf⟩

theorem exitCode_of_cannotRun (hc : r.command = .check c) (h : CannotRun host r c t) :
    ((host.run r).run t).1.exitCode = .notRun := by
  rcases h with ⟨f, h, hn, he⟩ | ⟨p, hp, hw⟩
  · have hf : f.isCheckFailure = false := by
      refine eq_false_of_ne_true fun hf => ?_
      rcases isCheckFailure_of_stops h hf with rfl | ⟨exts, rfl⟩
      · exact hn rfl
      · exact he exts rfl
    rw [exitCode_of_stops hc h, hf]
    rfl
  · exact exitCode_of_not_written hc hp hw

/-- The three ways in which a run can end leave nothing out. -/
theorem allPass_or_someFail_or_cannotRun (host : Host) (r : Request) (c : CheckRequest)
    (t : FileTree) :
    AllPass host r c t ∨ SomeFail host r c t ∨ CannotRun host r c t := by
  rcases prepares_or_stops host r c t with ⟨p, h⟩ | ⟨f, h⟩
  · by_cases hw : p.Written host r c
    · by_cases hp : ∀ result ∈ p.results host c, result.passed = true
      · exact .inl ⟨p, h, hw, hp⟩
      · obtain ⟨result, hn⟩ := Classical.not_forall.mp hp
        obtain ⟨hm, hf⟩ := Classical.not_imp.mp hn
        exact .inr (.inl (.inr (.inr ⟨p, h, hw, result, hm, eq_false_of_ne_true hf⟩)))
    · exact .inr (.inr (.inr ⟨p, h, hw⟩))
  · by_cases hn : f = .pathNotFound c.path
    · exact .inr (.inl (.inl (hn ▸ h)))
    · by_cases he : ∃ exts, f = .noFilesMatched exts
      · obtain ⟨exts, rfl⟩ := he
        exact .inr (.inl (.inr (.inl ⟨exts, h⟩)))
      · exact .inr (.inr (.inl ⟨f, h, hn, fun exts hx => he ⟨exts, hx⟩⟩))

end ScriptLint
