import ScriptLint.Proofs.Changes
import ScriptLint.Proofs.Scan

/-!
Exit codes of check runs. Main statements: `exitCode_check`, the exit code of every run, and
`not_exitCode_jobs`, where programs write to the files the number of the workers can decide it.
-/

namespace ScriptLint

variable {host : Host} {r : Request} {c : CheckRequest} {t : FileTree}

/-! ## Two names of a script -/

/-- A project with a script and a link to it. -/
def linkedProject (text : String) : FileTree :=
  ⟨[(["a.sh".toList], .file text.toUTF8 0o755), (["b.sh".toList], .link "a.sh")]⟩

/-- Its candidates. -/
def linkedPair : List Candidate :=
  [⟨"/a.sh", "sh"⟩, ⟨"/b.sh", "sh"⟩]

theorem wellFormed_linkedProject (text : String) : (linkedProject text).WellFormed := by
  have ha : IsName "a.sh".toList := by decide
  have hb : IsName "b.sh".toList := by decide
  constructor
  · rintro entry hm
    rcases List.mem_pair.mp hm with rfl | rfl
    · exact List.forall_mem_singleton.mpr ha
    · exact List.forall_mem_singleton.mpr hb
  · rintro entry hm
    rcases List.mem_pair.mp hm with rfl | rfl <;> rfl

theorem fileAt_linkedProject (text : String) :
    (linkedProject text).FileAt ["b.sh".toList] ["a.sh".toList] where
  isName := by decide
  follow := by
    have hsplit : Path.splitSlash "a.sh".toList = ["a.sh".toList] := by decide
    refine (FileTree.follow_last_link (by decide) rfl).trans ?_
    rw [if_neg (by decide), hsplit]
    exact FileTree.follow_file (by decide) rfl
  file := ⟨_, _, rfl⟩

/-- Both candidates have the text of the script. -/
theorem reads_linkedProject (text : String) {c : Candidate} (hc : c ∈ linkedPair) :
    c.Reads (linkedProject text) [] text ∧ (linkedProject text).mode? [] c.path = some 0o755 := by
  have hlocate : (linkedProject text).locate [] c.path = .ok ["a.sh".toList] := by
    rcases List.mem_pair.mp hc with rfl | rfl
    · have hg : (linkedProject text).get? ["a.sh".toList] = some (.file text.toUTF8 0o755) := rfl
      exact ((wellFormed_linkedProject text).fileAt hg).locate_eq_ok_iff.mpr ⟨by decide, rfl⟩
    · exact (fileAt_linkedProject text).locate_eq_ok_iff.mpr ⟨by decide, rfl⟩
  refine ⟨⟨text.toUTF8, ?_, Utf8.decode?_toUTF8 text⟩, ?_⟩
  · simp only [FileTree.read, hlocate, bind, Except.bind]
    rfl
  · simp only [FileTree.mode?, FileTree.entryAt?, hlocate]
    rfl

theorem scan_linkedProject (text : String) :
    scan (linkedProject text) [] ⟨["sh", "py"], []⟩ false "." = .ok linkedPair := by
  have hspot : (linkedProject text).spot [] "." = .ok (.taken []) := by cbv
  have hlocate : (linkedProject text).locate [] "/b.sh" = .ok ["a.sh".toList] :=
    (fileAt_linkedProject text).locate_eq_ok_iff.mpr ⟨by decide, rfl⟩
  have hnames : (linkedProject text).names [] = ["a.sh".toList, "b.sh".toList] := rfl
  have hshown : Path.join (Location.toPath []) (String.ofList "b.sh".toList) = "/b.sh" := by decide
  have hfiles : (linkedProject text).filesIn false [] = ["/a.sh", "/b.sh"] := by
    rw [FileTree.filesIn, FileTree.walk, hnames]
    simp only [List.flatMap_cons, List.flatMap_nil, hshown, hlocate]
    rfl
  have hsorted :
      (sortPaths (keepFirst (["/a.sh", "/b.sh"].filter (Filter.includes ⟨["sh", "py"], []⟩)))).map
      Candidate.ofPath = linkedPair := by cbv
  have hroot : (linkedProject text).locate [] "." = .ok [] := by
    rw [FileTree.locate, hspot]
  rw [scan_directory hroot (FileTree.get?_nil _), if_neg (by decide), scanDirectory, hfiles,
    hsorted]

/-- What the checks see of the script under one of its names. -/
theorem analyze_linkedProject (settings : Settings) {text : String}
    (hi : isIgnored text.toList = false) {cand : Candidate} (hc : cand ∈ linkedPair) :
    analyze settings (linkedProject text) [] cand =
      { path := cand.path
        findings := settings.findings
          { path := cand.path, extension := cand.extension, text := text.toList,
            mode := some 0o755 } } := by
  obtain ⟨hr, hmode⟩ := reads_linkedProject text hc
  rw [analyze_of_checked settings hr hi, Candidate.script, hmode]

/-- What a run has settled that checks both names. -/
def linkedSetup (text : String) : Prepared where
  config := {}
  filter := ⟨["sh", "py"], []⟩
  tree := linkedProject text
  candidates := linkedPair

/-- A host with a shell and no other programs. -/
theorem prepares_linkedSetup {programs : Programs} (text : String) (turns : List Nat)
    (output : Option String) (jobs : Option Nat)
    (hp : (tryShell programs (some "bash")).runOn (linkedProject text) =
      (.ok (), linkedProject text)) :
    Prepares { programs, turns } { noConfig := true, command := .check { output, jobs } }
      { output, jobs }
      (linkedProject text) (linkedSetup text) where
  config := rfl
  filter := buildFilter_standard
  shell := hp
  scan := scan_linkedProject text
  found := List.cons_ne_nil _ _

/-! ## The exit code -/

/-- The request with other wishes about how the run shows its work. -/
def Request.restyle (r : Request) (c : CheckRequest) (verbose : Nat) (quiet : Bool)
    (color : ColorMode) (format : ReportFormat) (jobs : Option Nat) : Request :=
  { r with verbose, quiet, color, command := .check { c with format, jobs } }

/-- How the run shows its work makes no difference to the results, and neither does the number of
the workers where programs write nothing. -/
theorem Prepared.results_restyle (p : Prepared) (c : CheckRequest) (format : ReportFormat)
    {jobs : Option Nat} (hj : jobs = c.jobs ∨ WriteNothing host.programs) :
    p.results host { c with format, jobs } = p.results host c := by
  rcases hj with rfl | hp
  · rfl
  · rw [results, results, runOn_inspection_of_keeps p host _ hp,
      runOn_inspection_of_keeps p host _ hp]
    rfl

/-- A run that prints its report exits alike however it shows its work. -/
theorem exitCode_restyle (hc : r.command = .check c) (ho : c.output = none) (verbose : Nat)
    (quiet : Bool) (color : ColorMode) (format : ReportFormat) {jobs : Option Nat}
    (hj : jobs = c.jobs ∨ WriteNothing host.programs) :
    ((host.run (r.restyle c verbose quiet color format jobs)).run t).1.exitCode =
      ((host.run r).run t).1.exitCode := by
  have hc' : (r.restyle c verbose quiet color format jobs).command =
      .check { c with format, jobs } := rfl
  rcases prepares_or_stops host r c t with ⟨p, h⟩ | ⟨f, h⟩
  · have h' : Prepares host (r.restyle c verbose quiet color format jobs)
        { c with format, jobs } t p :=
      ⟨h.config, h.filter, h.shell, h.scan, h.found⟩
    have hw (r : Request) (c : CheckRequest) (ho : c.output = none) : p.Written host r c := by
      intro path hp
      rw [ho] at hp
      cases hp
    rw [exitCode_of_written hc h (hw r c ho), exitCode_of_written hc' h' (hw _ _ ho),
      p.results_restyle c format hj]
  · have h' : SetupStops host (r.restyle c verbose quiet color format jobs)
        { c with format, jobs } t f := by
      cases h with
      | config hf => exact .config hf
      | filter hg hf => exact .filter hg hf
      | shell hg hl hf => exact .shell hg hl hf
      | scan hg hl hs hf => exact .scan hg hl hs hf
      | found hg hl hs hf => exact .found hg hl hs hf
    rw [exitCode_of_stops hc h, exitCode_of_stops hc' h']

/-- The exit code of every check run. It is a success exactly when the setup is complete, which
takes at least one candidate, the report is written and all results pass. It is a failed check
exactly when there is no such path, no file matches, or the report is written and some result does
not pass. In all other cases the run counts as not carried out. There is one result for each
candidate, in their order. The first step of the setup that fails decides what the user sees:
configuration, patterns, shell, path, candidates. A single worker takes the candidates one by one.
How a printed report looks has no influence, and neither the workers nor their turns have any where
programs write nothing. -/
theorem exitCode_check (hc : r.command = .check c) :
    let code := ((host.run r).run t).1.exitCode
    (code = .success ↔ AllPass host r c t) ∧
    (code = .checkFailed ↔ SomeFail host r c t) ∧
    (code = .notRun ↔ CannotRun host r c t) ∧
    (∀ p, Prepares host r c t p → p.candidates ≠ [] ∧
      List.Forall₂ (ResultAmong host p.config (p.shell c) (p.events host c)) p.candidates
        (p.results host c) ∧
      (c.jobs.getD host.workers ≤ 1 → p.results host c =
        ((p.candidates.mapM (inspectAlone host p.config (p.shell c))).run p.tree).1) ∧
      (WriteNothing host.programs → p.results host c =
        p.candidates.map (analyze (p.settings host c) p.tree host.cwd))) ∧
    (∀ f, SetupStops host r c t f → ((host.run r).run t).1.withoutLog = host.shown r (.error f)) ∧
    (∀ config, (∃ filter, c.filter host config = .ok filter) ↔
      (∀ pattern ∈ config.scan.exclude ++ c.exclude, ∃ glob, Glob.ofPattern pattern = .ok glob) ∧
      ∀ globs, (config.scan.exclude ++ c.exclude).mapM Glob.ofPattern = .ok globs →
        host.uncompilable globs = none) ∧
    (∀ shell, ((tryShell host.programs shell).runOn t).1 = .ok () ↔
      ∀ name, shell = some name → ∃ output,
        ((host.programs name ["--version"]).run t).1 = .ok output) ∧
    (c.output = none →
      ∀ verbose quiet color format jobs, (jobs = c.jobs ∨ WriteNothing host.programs) →
      ((host.run (r.restyle c verbose quiet color format jobs)).run t).1.exitCode = code) := by
  intro code
  have hs : AllPass host r c t → code = .success := exitCode_of_allPass hc
  have hf : SomeFail host r c t → code = .checkFailed := exitCode_of_someFail hc
  have hn : CannotRun host r c t → code = .notRun := exitCode_of_cannotRun hc
  have hall := allPass_or_someFail_or_cannotRun host r c t
  refine ⟨⟨fun he => ?_, hs⟩, ⟨fun he => ?_, hf⟩, ⟨fun he => ?_, hn⟩,
    fun p h => ⟨h.found, ?_, fun hj => ?_, fun hp => ?_⟩,
    fun f h => run_of_stops hc h, fun config => buildFilter_ok_iff, fun shell => tryShell_ok_iff,
    fun ho verbose quiet color format jobs hj =>
      exitCode_restyle hc ho verbose quiet color format hj⟩
  · rcases hall with h | h | h
    · exact h
    · cases (hf h).symm.trans he
    · cases (hn h).symm.trans he
  · rcases hall with h | h | h
    · cases (hs h).symm.trans he
    · exact h
    · cases (hn h).symm.trans he
  · rcases hall with h | h | h
    · cases (hs h).symm.trans he
    · cases (hf h).symm.trans he
    · exact h
  · exact inspectAll_results host p.config (p.shell c) c.jobs p.candidates p.tree
  · exact congrArg Prod.fst
      (runOn_inspectAll_of_single host p.config (p.shell c) p.tree hj p.candidates)
  · exact congrArg Prod.fst (p.runOn_inspection_of_keeps host c hp)

/-- A shell that complains about the script at a path and writes nothing. -/
def pickyShell (bad : String) : Programs := fun _ args =>
  pure (.ok { status := .code (if args = ["-n", bad] then 2 else 0) })

/-- What a run with such a shell makes of both names. -/
theorem results_pickyShell (bad : String) (turns : List Nat) (output : Option String)
    (jobs : Option Nat) :
    (linkedSetup "#!/bin/bash\n").results { programs := pickyShell bad, turns } { output, jobs } =
      linkedPair.map fun cand =>
        { path := cand.path
          findings := (checkSettings {} (pickyShell bad) (some "bash") {}).findings
            { path := cand.path, extension := cand.extension, text := "#!/bin/bash\n".toList,
              mode := some 0o755 } } := by
  have hp : WriteNothing (pickyShell bad) := fun _ _ _ => rfl
  rw [Prepared.results,
    Prepared.runOn_inspection_of_keeps _ { programs := pickyShell bad, turns } _ hp]
  exact List.map_congr_left fun cand hm => analyze_linkedProject _ (by decide) hm

/-- The report can be written. -/
theorem written_linkedSetup (bad : String) (turns : List Nat) :
    (linkedSetup "#!/bin/bash\n").Written { programs := pickyShell bad, turns }
    { noConfig := true, command := .check { output := some "out/report.txt" } }
      { output := some "out/report.txt" } := by
  intro path hpath
  cases hpath
  have hp : WriteNothing (pickyShell bad) := fun _ _ _ => rfl
  rw [Prepared.finalTree_of_keeps _ { programs := pickyShell bad, turns } _ hp]
  have hdir : IsPathOf "out" [] "out".toList := by decide
  have hreport : IsPathOf "out/report.txt" ["out".toList] "report.txt".toList := by decide
  exact congrArg Prod.fst
    (IsPathOf.runOn_writeFile (wellFormed_linkedProject _) [] hdir hreport (by decide) rfl _)

/-- With a shell that finds no fault the check of both names succeeds, and its report is written. It
fails if the shell complains about one of them, or if there is no such path, and it is not carried
out without a shell. The number of the workers has no influence, although they take turns. -/
theorem exitCode_check_linkedProject :
    let code (programs : Programs) (c : CheckRequest) :=
      ((Host.run { programs, turns := [1, 0] } { noConfig := true, command := .check c }).run
        (linkedProject "#!/bin/bash\n")).1.exitCode
    code (pickyShell "") { output := some "out/report.txt" } = .success ∧
      code (pickyShell "/b.sh") { output := some "out/report.txt" } = .checkFailed ∧
      code (pickyShell "") { path := "c.sh" } = .checkFailed ∧
      code noPrograms { output := some "out/report.txt" } = .notRun ∧
      ∀ jobs, code (pickyShell "/b.sh") { jobs } = code (pickyShell "/b.sh") {} := by
  intro code
  have hlaw (programs : Programs) (c : CheckRequest) :=
    @exitCode_check { programs, turns := [1, 0] } { noConfig := true, command := .check c } c
      (linkedProject "#!/bin/bash\n") rfl
  have hready (bad : String) (output : Option String) :=
    @prepares_linkedSetup (pickyShell bad) "#!/bin/bash\n" [1, 0] output none rfl
  have hfilter : buildFilter ["sh", "py"] [] = .ok ⟨["sh", "py"], []⟩ := by cbv
  have hmissing : scan (linkedProject "#!/bin/bash\n") [] ⟨["sh", "py"], []⟩ false "c.sh" =
      .error (.pathNotFound "c.sh") := by
    have hname : IsPathOf "c.sh" [] "c.sh".toList := by decide
    have hlocate : (linkedProject "#!/bin/bash\n").locate [] "c.sh" = .error .notFound := by
      rw [FileTree.locate, hname.spot_eq, List.nil_append, FileTree.follow_free (by decide) rfl]
    simp only [scan, hlocate]
  refine ⟨?_, ?_, ?_, ?_, ?_⟩
  · refine (hlaw _ _).1.mpr ⟨_, hready _ _, written_linkedSetup _ _, ?_⟩
    rw [results_pickyShell]
    decide +kernel
  · refine (hlaw _ _).2.1.mpr (.inr (.inr ⟨_, hready _ _, written_linkedSetup _ _, ?_⟩))
    rw [results_pickyShell]
    decide +kernel
  · exact (hlaw _ _).2.1.mpr (.inl (.scan rfl hfilter rfl hmissing))
  · refine (hlaw _ _).2.2.1.mpr (.inl ⟨_, .shell rfl hfilter rfl, ?_, ?_⟩)
    · simp
    · simp
  · intro jobs
    exact (hlaw (pickyShell "/b.sh") {}).2.2.2.2.2.2.2 rfl 0 false .auto .text jobs
      (.inr fun _ _ _ => rfl)

/-! ## Programs that write to the files -/

/-- A shell that marks the script under its own name as one to be ignored, and complains about it
under the other name. -/
def markingShell : Programs := fun _ args => do
  if args = ["-n", "/a.sh"] then
    modify (·.put ["a.sh".toList] "#!/bin/bash\n# STYLECHECK_IGNORE\n".toUTF8)
    return .ok { status := .code 0 }
  else if args = ["-n", "/b.sh"] then return .ok { status := .code 2 }
  else return .ok { status := .code 0 }

/-- Two workers begin with the first files in turn. -/
def markingHost : Host := { programs := markingShell, turns := [0, 1] }

/-- Two workers have taken their first steps before one of them takes another. -/
theorem runOn_work_both_begun {ρ : Type} {first second first' second' : Job ρ} {t : FileTree}
    (hf : first.advance.runOn t = (first', t)) (hs : second.advance.runOn t = (second', t)) :
    ((work 2 [0, 1] [first, second]).runOn t).1 =
      [(first'.finish.runOn t).1, (second'.finish.runOn (first'.finish.runOn t).2).1] := by
  have hfirst : (takeTurn 2 [{ job := first }, { job := second }] 0).runOn t =
      ([{ job := first', begun := true }, { job := second }], t) := by
    show (([⟨(first.advance.runOn t).1, true⟩, ⟨second, false⟩] : List (Piece ρ)),
      (first.advance.runOn t).2) = _
    rw [hf]
  have hsecond : (takeTurn 2 [{ job := first', begun := true }, { job := second }] 1).runOn t =
      ([{ job := first', begun := true }, { job := second', begun := true }], t) := by
    have hfree : ¬ 2 ≤ [{ job := first', begun := true },
        ({ job := second } : Piece ρ)].countP Piece.busy := by
      cases hd : first'.isDone <;> simp [Piece.busy, hd]
    have hturn : takeTurn 2 [{ job := first', begun := true }, { job := second }] 1 = do
        return [{ job := first', begun := true }, ← Piece.advance { job := second }] := by
      unfold takeTurn
      simp [hfree]
    rw [hturn]
    show (([⟨first', true⟩, ⟨(second.advance.runOn t).1, true⟩] : List (Piece ρ)),
      (second.advance.runOn t).2) = _
    rw [hs]
  have hturns : ([0, 1].foldlM (takeTurn 2) [{ job := first }, { job := second }]).runOn t =
      ([{ job := first', begun := true }, { job := second', begun := true }], t) := by
    simp only [List.foldlM_cons, List.foldlM_nil, Traced.runOn_bind, hfirst, hsecond,
      Traced.runOn_pure]
  unfold work
  simp only [List.map_cons, List.map_nil]
  rw [if_neg (by decide), Traced.runOn_bind, hturns]
  rfl

section Marking

/-- The script before and after the shell has marked it. -/
def plainText : String := "#!/bin/bash\n"

def markedText : String := "#!/bin/bash\n# STYLECHECK_IGNORE\n"

/-- What the shell leaves of the project when it has read the script under its own name. -/
theorem treeAfter_markingShell :
    Inspection.treeAfter markingHost {} (some "bash") ⟨"/a.sh", "sh"⟩ (linkedProject plainText) =
      linkedProject markedText := by
  have hreader : Inspection.reader? {} (some "bash") ⟨"/a.sh", "sh"⟩ = some "bash" := by decide
  rw [Inspection.treeAfter, hreader]
  rfl

/-- The script passes under its own name. -/
theorem passed_plainText :
    FileResult.passed
      { path := "/a.sh"
        findings := (checkSettings {} markingShell (some "bash") (linkedProject plainText)).findings
          { path := "/a.sh", extension := "sh", text := plainText.toList, mode := some 0o755 } } =
            true := by
  decide +kernel

/-- A single worker finds the mark when it comes to the other name. -/
theorem passed_one_worker :
    ∀ result ∈ (linkedSetup plainText).results markingHost { jobs := some 1 },
      result.passed = true := by
  have hfirst : (inspectAlone markingHost {} (some "bash") ⟨"/a.sh", "sh"⟩).run
      (linkedProject plainText) =
      (analyze (checkSettings {} markingShell (some "bash") (linkedProject plainText))
        (linkedProject plainText) []
        ⟨"/a.sh", "sh"⟩, linkedProject markedText) := by
    have htext := Candidate.text_of_reads (reads_linkedProject plainText List.mem_cons_self).1
    show inspectAlone _ _ _ _ _ = _
    simp only [inspectAlone, markingHost, htext]
    rw [if_neg (by decide)]
    exact congrArg _ treeAfter_markingShell
  have hsecond :
      ((inspectAlone markingHost {} (some "bash") ⟨"/b.sh", "sh"⟩).run
        (linkedProject markedText)).1 =
      { path := "/b.sh", ignored := true } :=
    analyze_of_ignored _ (reads_linkedProject markedText (by simp [linkedPair])).1 (by decide)
  have hresults : (linkedSetup plainText).results markingHost { jobs := some 1 } =
      [analyze (checkSettings {} markingShell (some "bash") (linkedProject plainText))
        (linkedProject plainText) []
        ⟨"/a.sh", "sh"⟩, { path := "/b.sh", ignored := true }] := by
    show ((inspectAll markingHost {} (some "bash") (some 1) linkedPair).runOn
      (linkedProject plainText)).1 = _
    rw [runOn_inspectAll_of_single _ _ _ _ le_rfl, linkedPair]
    simp only [List.mapM_cons, List.mapM_nil, StateT.run_bind, hfirst]
    show [_, ((inspectAlone markingHost {} (some "bash") ⟨"/b.sh", "sh"⟩).run
      (linkedProject markedText)).1] = _
    rw [hsecond]
  rw [hresults, analyze_linkedProject _ (by decide) List.mem_cons_self]
  intro result hm
  rcases List.mem_pair.mp hm with rfl | rfl
  · exact passed_plainText
  · rfl

/-- Two workers have read both names before. -/
theorem failed_two_workers :
    ∃ result ∈ (linkedSetup plainText).results markingHost { jobs := some 2 },
      result.passed = false := by
  have hbegun {c : Candidate} (hc : c ∈ linkedPair) :
      (inspect markingHost {} (some "bash") c).advance.runOn (linkedProject plainText) =
        (Inspection.checked markingHost {} (some "bash") c plainText.toList,
          linkedProject plainText) := by
    have htext := Candidate.text_of_reads (reads_linkedProject plainText hc).1
    rw [inspect, Job.runOn_advance_once_bind, Traced.runOn_look]
    show (_, linkedProject plainText) = _
    simp only [markingHost, htext]
    rw [if_neg (by decide)]
  have hresults : (linkedSetup plainText).results markingHost { jobs := some 2 } =
      ((work 2 [0, 1] (linkedPair.map (inspect markingHost {} (some "bash")))).runOn
        (linkedProject plainText)).1 :=
    rfl
  rw [hresults, linkedPair, List.map_cons, List.map_cons, List.map_nil,
    runOn_work_both_begun (hbegun (by simp [linkedPair])) (hbegun (by simp [linkedPair]))]
  have hafter :
      ((Inspection.checked markingHost {} (some "bash") ⟨"/a.sh",
        "sh"⟩ plainText.toList).finish.runOn
      (linkedProject plainText)).2 = linkedProject markedText := by
    rw [Inspection.runOn_finish_checked]
    exact treeAfter_markingShell
  have hmode : (linkedProject markedText).mode? [] "/b.sh" = some 0o755 :=
    (@reads_linkedProject markedText ⟨"/b.sh", "sh"⟩ (by simp [linkedPair])).2
  refine ⟨_, List.mem_cons_of_mem _ List.mem_cons_self, ?_⟩
  rw [hafter, Inspection.runOn_finish_checked, Candidate.script]
  simp only [markingHost, hmode]
  decide +kernel

/-- If a program writes to the files, the number of the workers can decide the exit code. -/
theorem not_exitCode_jobs :
    ¬ ∀ (host : Host) (r : Request) (c : CheckRequest) (t : FileTree) (jobs : Option Nat),
      r.command = .check c → c.output = none →
        ((host.run (r.restyle c r.verbose r.quiet r.color c.format jobs)).run t).1.exitCode =
          ((host.run r).run t).1.exitCode := by
  intro h
  let r (jobs : Option Nat) : Request := { noConfig := true, command := .check { jobs } }
  have hready (jobs : Option Nat) : Prepares markingHost (r jobs) { jobs } (linkedProject plainText)
      (linkedSetup plainText) := prepares_linkedSetup plainText [0, 1] none jobs rfl
  have hwritten (jobs : Option Nat) : (linkedSetup plainText).Written markingHost (r jobs)
      { jobs } :=
    fun path hpath => by cases hpath
  have hone : ((markingHost.run (r (some 1))).run (linkedProject plainText)).1.exitCode =
      .success :=
    exitCode_of_allPass rfl ⟨_, hready _, hwritten _, passed_one_worker⟩
  have htwo : ((markingHost.run (r (some 2))).run (linkedProject plainText)).1.exitCode =
      .checkFailed :=
    exitCode_of_someFail rfl (.inr (.inr ⟨_, hready _, hwritten _, failed_two_workers⟩))
  have hsame : ((markingHost.run (r (some 2))).run (linkedProject plainText)).1.exitCode =
      ((markingHost.run (r (some 1))).run (linkedProject plainText)).1.exitCode :=
    h markingHost (r (some 1)) { jobs := some 1 } (linkedProject plainText) (some 2) rfl rfl
  cases hone.symm.trans (hsame.symm.trans htwo)

end Marking

end ScriptLint
