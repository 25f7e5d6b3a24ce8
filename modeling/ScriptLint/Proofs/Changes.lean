import ScriptLint.Command.Run
import ScriptLint.Proofs.CheckRun
import ScriptLint.Proofs.FormatRuns
import ScriptLint.Proofs.Growth

/-!
What runs change. Steps that change nothing make up every command up to its one write; with programs
that write nothing themselves, a run that ends before that leaves the files as they were. Main
statement: `run_changes`, what each command may change.
-/

namespace ScriptLint

open ScriptLint.Action

/-! ## Steps that change nothing -/

namespace Course

variable {α β : Type}

/-- The course leaves the files as they are, however it ends. -/
def Keeps (x : Course α) : Prop :=
  ∀ t, (x.runOn t).2 = t

theorem keeps_traced {x : Traced α} (h : ∀ t, (x.runOn t).2 = t) : Keeps (liftM x : Course α) :=
  h

theorem keeps_action {x : Action α} (h : ∀ t, (x.runOn t).2 = t) : Keeps (liftM x : Course α) :=
  h

theorem keeps_bind {x : Course α} {next : α → Course β} (hx : Keeps x) (hn : ∀ a, Keeps (next a)) :
    Keeps (x >>= next) := by
  intro t
  have ht := hx t
  rw [runOn_bind]
  rcases hr : x.runOn t with ⟨f | a, t'⟩
  · rw [hr] at ht
    exact ht
  · rw [hr] at ht
    cases ht
    exact hn a _

end Course

namespace WriteNothing

variable {programs : Programs} (hp : WriteNothing programs)
include hp

theorem runOn_tryShell (shell : Option String) (t : FileTree) :
    ((tryShell programs shell).runOn t).2 = t := by
  cases shell with
  | none => rfl
  | some name =>
    have ht := hp name ["--version"] t
    rw [tryShell, Shell.probe, runOn_bind, runOn_orFail]
    rcases hr : (programs name ["--version"]).run t with ⟨e | output, t'⟩ <;> rw [hr] at ht
      <;> exact ht

theorem runOn_version (formatter : FormatterProgram) (t : FileTree) :
    ((formatter.version programs).runOn t).2 = t := by
  have ht := hp formatter.program ["--version"] t
  rw [FormatterProgram.version, runOn_bind, runOn_orFail]
  rcases hr : (programs formatter.program ["--version"]).run t with ⟨e | output, t'⟩
    <;> rw [hr] at ht <;> exact ht

/-- Such a program changes no file as a formatter either. -/
theorem runOn_formatPaths {host : Host} (hh : host.programs = programs)
    (formatter : FormatterProgram) (checkOnly : Bool) (paths : List String) (t : FileTree) :
    ((formatPaths host formatter checkOnly paths).runOn t).2 = t := by
  subst hh
  have hcall {path : String} {t t' : FileTree} :
      (∀ {answer}, ((formatter.toFormatter host.programs).needsFormat path).run t = (answer, t') →
        t' = t) ∧
        ∀ {answer}, ((formatter.toFormatter host.programs).write path).run t = (answer, t') →
          t' = t :=
    ⟨fun h => (congrArg Prod.snd h).symm.trans (hp formatter.program _ t),
      fun h => (congrArg Prod.snd h).symm.trans (hp formatter.program _ t)⟩
  obtain ⟨calls, hruns, -⟩ := formats_formatPaths host formatter checkOnly paths t
  refine Formatter.Runs.keeps (P := (· = t)) hruns (fun hw hs => ?_) rfl
  cases hw with
  | clean h | differs h | begins h | rejected h => exact (hcall.1 h).trans hs
  | written h | stuck h => exact (hcall.2 h).trans hs

end WriteNothing

/-! ## Commands -/

section Commands

variable {host : Host} {r : Request} {c : CheckRequest} {t : FileTree}

theorem keeps_runFormat (hp : WriteNothing host.programs) (r : Request) (f : FmtRequest) :
    Course.Keeps (runFormat host r f) := by
  refine Course.keeps_bind (fun t => by rw [Course.runOn_configure]) fun config => ?_
  refine Course.keeps_bind ?_ fun _ => ?_
  · refine Course.keeps_bind (Course.keeps_traced fun _ => rfl) fun _ => ?_
    exact Course.keeps_bind (Course.keeps_action (hp.runOn_version _)) fun _ =>
      Course.keeps_traced fun _ => rfl
  refine Course.keeps_bind (Course.keeps_action fun _ => rfl) fun filter => ?_
  refine Course.keeps_bind (fun t => by rw [Course.runOn_search]) fun candidates => ?_
  exact Course.keeps_bind (Course.keeps_traced (hp.runOn_formatPaths rfl _ _ _)) fun _ _ => rfl

/-- A run that stops in its setup changes nothing. -/
theorem runCheck_keeps_of_stops (hp : WriteNothing host.programs) {f : Failure}
    (h : SetupStops host r c t f) :
    ((runCheck host r c).runOn t).2 = t := by
  have hshell {shell : Option String} {ended : Except Failure Unit} {t' : FileTree}
      (hs : (tryShell host.programs shell).runOn t = (ended, t')) : t' = t :=
    (congrArg Prod.snd hs).symm.trans (hp.runOn_tryShell shell t)
  cases h with
  | config hf =>
    unfold runCheck
    simp only [Course.runOn_bind, Course.runOn_configure, hf]
  | filter hc hf =>
    unfold runCheck
    simp only [Course.runOn_bind, Course.runOn_configure, Course.runOn_action,
      runOn_ofExcept, hc, hf]
  | shell hc hl hf =>
    unfold runCheck
    simp only [Course.runOn_bind, Course.runOn_configure, Course.runOn_action, runOn_ofExcept,
      Course.runOn_readyShell, hc, hl, hf]
    exact hshell hf
  | scan hc hl hs hf =>
    rw [runOn_runCheck_of_ready hc hl hs, CheckRequest.proceed, Course.runOn_bind,
      Course.runOn_search, findCandidates_of_error hf]
    exact hshell hs
  | found hc hl hs hf =>
    rw [runOn_runCheck_of_ready hc hl hs, CheckRequest.proceed, Course.runOn_bind,
      Course.runOn_search, findCandidates_of_nil hf]
    exact hshell hs

/-- A run changes nothing before it concludes. -/
theorem runOn_runCheck_of_keeps (hp : WriteNothing host.programs) {p : Prepared}
    (h : Prepares host r c t p) :
    (runCheck host r c).runOn t = (c.conclude host r (p.results host c)).runOn t := by
  have htree : p.tree = t := (congrArg Prod.snd h.shell).symm.trans (hp.runOn_tryShell _ t)
  have hfinal : p.finalTree host c = t :=
    (congrArg Prod.snd (p.runOn_inspection_of_keeps host c hp)).trans htree
  rw [runOn_runCheck_of_prepares h, hfinal]

end Commands

/-! ## The report's file -/

/-- The paths of the directories above a path, from the innermost one outwards. -/
def pathsAbove (path : String) : List String :=
  match Path.parent? path with
  | some above => FileTree.ancestors above
  | none => []

/-- Writing a text to a file, in directories that are there. -/
def writeText (cwd : Location) (path text : String) : Action Unit := do
  match (← get).write cwd path text.toUTF8 with
  | .ok t => set t
  | .error e => throw (.io e)

theorem runOn_writeText (cwd : Location) (path text : String) (t : FileTree) :
    (writeText cwd path text).runOn t =
      match t.write cwd path text.toUTF8 with
      | .ok t' => (.ok (), t')
      | .error e => (.error (.io e), t) := by
  rw [writeText, runOn_bind, runOn_get]
  show runOn (match t.write cwd path text.toUTF8 with | .ok t => set t | .error e => throw (.io e))
    t = _
  cases t.write cwd path text.toUTF8 with
  | ok t' => rfl
  | error e => rfl

/-- Directories are made first, and then the file is written. -/
theorem runOn_writeFile (cwd : Location) (path text : String) (t : FileTree) :
    (writeFile cwd path text).runOn t =
      match t.ensureDirectories cwd (pathsAbove path) with
      | (made, .ok ()) => (writeText cwd path text).runOn made
      | (made, .error e) => (.error (.io e), made) := by
  unfold writeFile pathsAbove
  split
  · next hparent =>
    rw [hparent]
    rfl
  · next hparent =>
    rw [hparent]
    rfl
  · next above _ hparent =>
    rw [hparent]
    rcases hmade : t.ensureDirectories cwd (FileTree.ancestors above) with ⟨made, e | _⟩
    · simp only [runOn_bind, runOn_get, runOn_set, FileTree.ensureAll, hmade]
      rfl
    · simp only [runOn_bind, runOn_get, runOn_set, FileTree.ensureAll, hmade]
      rfl

/-! ## Relative paths -/

/-- A relative path and its names, as the functions on paths see them. -/
structure IsPathOf (path : String) (above : List (List Char)) (name : List Char) : Prop where
  names : ∀ n ∈ above ++ [name], IsName n
  check : FileTree.checkPath path = .ok ()
  last : splitLast? path = some (above, name, false)
  split : Path.splitSlash path.toList = above ++ [name]
  relative : Path.isAbsolute path = false

instance (path : String) (above : List (List Char)) (name : List Char) :
    Decidable (IsPathOf path above name) :=
  decidable_of_iff ((∀ n ∈ above ++ [name], IsName n) ∧ FileTree.checkPath path = .ok () ∧
      splitLast? path = some (above, name, false) ∧ Path.splitSlash path.toList = above ++ [name] ∧
      Path.isAbsolute path = false)
    ⟨fun ⟨hn, hc, hl, hs, hr⟩ => ⟨hn, hc, hl, hs, hr⟩,
      fun h => ⟨h.names, h.check, h.last, h.split, h.relative⟩⟩

namespace IsPathOf

variable {t : FileTree} {cwd l : Location} {path dir : String} {above : List (List Char)}
  {name dirName : List Char}

theorem spot_eq (hp : IsPathOf path above name) (t : FileTree) (cwd : Location) :
    t.spot cwd path = t.follow maxLinks cwd (above ++ [name]) := by
  rw [FileTree.spot_of_checkPath hp.check, FileTree.followFrom, hp.split, hp.relative]
  rfl

/-- A file is written where its path leads to a free name. -/
theorem write_of_free (hp : IsPathOf path above name)
    (hl : t.follow maxLinks cwd (above ++ [name]) = .ok (.free l)) (bytes : ByteArray) :
    t.write cwd path bytes = .ok (t.put l bytes) := by
  have hlocation : t.writeLocation cwd path = .ok l := by
    rw [FileTree.writeLocation, hp.check, hp.last, hp.spot_eq, hl]
    rfl
  rw [FileTree.write, hlocation]
  rfl

/-- A directory can be made if nothing has its name. -/
theorem newDirectory_eq (hp : IsPathOf path [] name) (t : FileTree) (cwd : Location) :
    t.newDirectory cwd path =
      if (t.get? (cwd ++ [name])).isSome then .error .alreadyExists else .ok (cwd ++ [name]) := by
  have hn := hp.names name (List.mem_singleton_self _)
  have habove : t.directoryAbove cwd path [] = .ok cwd := by
    rw [FileTree.directoryAbove, FileTree.followFrom, hp.relative, List.nil_append,
      FileTree.follow_filler (by rfl), if_neg Bool.false_ne_true, FileTree.follow_nil]
    rfl
  have hdot : name ≠ ['.'] := by
    rintro rfl
    cases hn.notFiller
  rw [FileTree.newDirectory, hp.check, hp.last]
  simp only [bind, Except.bind, habove]
  rw [if_neg (by simp [hdot, hn.notParent]), if_neg (Nat.not_lt.mpr hn.short)]
  rfl

/-- A text is written to a file in a directory that has to be made. -/
theorem runOn_writeFile (hw : t.WellFormed) (cwd : Location)
    (hdir : IsPathOf dir [] dirName) (hp : IsPathOf path [dirName] name)
    (habove : pathsAbove path = [dir]) (hfree : t.get? (cwd ++ [dirName]) = none) (text : String) :
    (writeFile cwd path text).runOn t =
      (.ok (), (t.set (cwd ++ [dirName]) .directory).put (cwd ++ [dirName] ++ [name])
        text.toUTF8) := by
  have hne : cwd ++ [dirName] ≠ [] := List.concat_ne_nil _ _
  have hmade : t.ensureDirectories cwd [dir] = (t.set (cwd ++ [dirName]) .directory, .ok ()) := by
    rw [FileTree.ensureDirectories, FileTree.ensureDirectory, FileTree.makeDirectory,
      hdir.newDirectory_eq, hfree]
    rfl
  have hdirectory : (t.set (cwd ++ [dirName]) .directory).get? (cwd ++ [dirName]) =
      some .directory :=
    (FileTree.get?_set hne).trans (if_pos rfl)
  have hbelow : (t.set (cwd ++ [dirName]) .directory).get? (cwd ++ [dirName] ++ [name]) = none := by
    rw [FileTree.get?_set hne, if_neg (by simp)]
    refine Option.eq_none_iff_forall_ne_some.mpr fun e he => ?_
    cases hfree.symm.trans (hw.get?_of_append (List.cons_ne_nil _ _) he)
  have hlead : (t.set (cwd ++ [dirName]) .directory).follow maxLinks cwd ([dirName] ++ [name]) =
      .ok (.free (cwd ++ [dirName] ++ [name])) := by
    rw [List.singleton_append, FileTree.follow_directory (hp.names _ (by simp)) hdirectory]
    exact FileTree.follow_free (hp.names _ (by simp)) hbelow
  rw [ScriptLint.runOn_writeFile, habove, hmade]
  simp only [runOn_writeText, hp.write_of_free hlead]

end IsPathOf

/-- What writing to a path may change: the file to which the path leads, and directories above it
that were missing. -/
def Outputs (cwd : Location) (path : String) (t t' : FileTree) : Prop :=
  ∀ k, t'.get? k = t.get? k ∨
    (t'.locate cwd path = .ok k ∧ (∃ bytes mode, t'.get? k = some (.file bytes mode)) ∧
      (t.get? k = none ∨ ∃ bytes mode, t.get? k = some (.file bytes mode))) ∨
    (t.get? k = none ∧ t'.get? k = some .directory ∧
      ∃ above ∈ pathsAbove path, t'.locate cwd above = .ok k)

section Output

variable {cwd : Location} {path : String} {t t' : FileTree}

theorem outputs_of_makes (h : FileTree.Makes cwd (pathsAbove path) t t') : Outputs cwd path t t' :=
  fun k => (h.entry k).imp_right .inr

/-- Directories are made, and then the file is written. -/
theorem outputs_of_puts {made : FileTree} {l : Location} {bytes : ByteArray}
    (h : FileTree.Makes cwd (pathsAbove path) t made) (hl : t'.locate cwd path = .ok l)
    (hputs : FileTree.Puts l bytes made t') : Outputs cwd path t t' := by
  intro k
  by_cases hk : k = l
  · subst hk
    obtain ⟨mode, hfile, -⟩ := hputs.file
    refine .inr (.inl ⟨hl, ⟨bytes, mode, hfile⟩, ?_⟩)
    rcases h.entry k with hsame | ⟨hnone, -⟩
    · rw [← hsame]
      exact hputs.before
    · exact .inl hnone
  · rw [hputs.others k hk]
    rcases h.entry k with hsame | ⟨hnone, hdir, above, hm, habove⟩
    · exact .inl hsame
    · exact .inr (.inr ⟨hnone, hdir, above, hm, hputs.grows.locate habove⟩)

theorem outputs_writeFile (hw : t.WellFormed) (hd : t.get? cwd = some .directory)
    (path text : String) :
    Outputs cwd path t ((writeFile cwd path text).runOn t).2 := by
  have hmakes := FileTree.ensureDirectories_makes hw hd (pathsAbove path)
  rw [runOn_writeFile]
  rcases hmade : t.ensureDirectories cwd (pathsAbove path) with ⟨made, e | _⟩
  · rw [hmade] at hmakes
    exact outputs_of_makes hmakes
  · rw [hmade] at hmakes
    simp only [runOn_writeText]
    cases hwrite : made.write cwd path text.toUTF8 with
    | error e => exact outputs_of_makes hmakes
    | ok t' =>
      obtain ⟨l, hl, hputs, -⟩ :=
        FileTree.write_eq_ok hmakes.wellFormed (hmakes.grows.directory hd) hwrite
      exact outputs_of_puts hmakes hl hputs

end Output

/-! ## Runs -/

section Runs

variable {host : Host} {r : Request} {c : CheckRequest} {i : InitRequest} {t : FileTree}

theorem outputs_conclude (hw : t.WellFormed) (hd : t.get? host.cwd = some .directory)
    {path : String} (ho : c.output = some path) (results : List FileResult) :
    Outputs host.cwd path t ((c.conclude host r results).runOn t).2 := by
  have hwrite := outputs_writeFile hw hd path (Report.render c.format (host.reportStyle r) results
    (Summary.ofResults results))
  unfold CheckRequest.conclude
  simp only [ho, runOn_bind]
  revert hwrite
  rcases (writeFile host.cwd path _).runOn t with ⟨f | _, t'⟩
  · exact id
  · exact id

theorem runOn_runInit (host : Host) (r : Request) (i : InitRequest) (t : FileTree) :
    (runInit host r i).runOn t =
      if t.hasPath host.cwd i.output && !i.force then (.error (alreadyExists i.output), t)
      else
        match t.write host.cwd i.output Config.template.toUTF8 with
        | .ok t' =>
          (.ok ⟨.success, printed r ("Created configuration file: " ++ i.output ++ "\n")⟩, t')
        | .error e => (.error (.io e), t) := by
  rw [runInit, runOn_bind, runOn_get]
  simp only
  split
  · rfl
  · simp only [runOn_bind, runOn_get]
    cases t.write host.cwd i.output Config.template.toUTF8 with
    | ok t' => rfl
    | error e => rfl

/-- What starting a configuration comes to: the template is in the file to which the path leads,
which may have existed only if overwriting was asked for, or the run could not be carried out and
changed nothing. -/
def StartsConfig (cwd : Location) (i : InitRequest) (t : FileTree) (ran : RunResult × FileTree) :
    Prop :=
  (ran.1.exitCode = .success ∧ ∃ l, ran.2.locate cwd i.output = .ok l ∧
    FileTree.Puts l Config.template.toUTF8 t ran.2 ∧ (i.force = false → t.get? l = none)) ∨
  ran.1.exitCode = .notRun ∧ ran.2 = t

theorem startsConfig_run (hw : t.WellFormed) (hd : t.get? host.cwd = some .directory)
    (hi : r.command = .init i) :
    StartsConfig host.cwd i t ((host.run r).run t) := by
  have hinit := runOn_runInit host r i t
  rw [StartsConfig, exitCode_run, run_run_snd, perform_init host hi, Course.runOn_action]
  by_cases hhas : (t.hasPath host.cwd i.output && !i.force) = true
  · rw [if_pos hhas] at hinit
    rw [hinit]
    exact .inr ⟨rfl, rfl⟩
  rw [if_neg hhas] at hinit
  cases hwrite : t.write host.cwd i.output Config.template.toUTF8 with
  | error e =>
    rw [hwrite] at hinit
    rw [hinit]
    exact .inr ⟨rfl, rfl⟩
  | ok t' =>
    obtain ⟨l, hl, hputs, hold⟩ := FileTree.write_eq_ok hw hd hwrite
    rw [hwrite] at hinit
    rw [hinit]
    refine .inl ⟨rfl, l, hl, hputs, fun hforce => ?_⟩
    -- A path that leads to an entry would have kept the run from writing.
    cases hg : t.get? l with
    | none => rfl
    | some e =>
      have hpath : t.hasPath host.cwd i.output = true := by
        rw [FileTree.hasPath, FileTree.entryAt?, hold e hg]
        simp [hg]
      exact absurd (by simp [hpath, hforce]) hhas

/-- A run with a file for its report. -/
theorem outputs_run (hp : WriteNothing host.programs) (hw : t.WellFormed)
    (hd : t.get? host.cwd = some .directory)
    {path : String} (hc : r.command = .check c) (ho : c.output = some path) :
    Outputs host.cwd path t ((host.run r).run t).2 := by
  rw [run_run_snd, perform_check host hc]
  rcases prepares_or_stops host r c t with ⟨p, h⟩ | ⟨f, h⟩
  · rw [runOn_runCheck_of_keeps hp h]
    exact outputs_conclude hw hd ho _
  · rw [runCheck_keeps_of_stops hp h]
    exact fun _ => .inl rfl

/-- A run without such a file. -/
theorem run_eq_of_no_output (hp : WriteNothing host.programs) (hc : r.command = .check c)
    (ho : c.output = none) :
    ((host.run r).run t).2 = t := by
  rw [run_run_snd, perform_check host hc]
  rcases prepares_or_stops host r c t with ⟨p, h⟩ | ⟨f, h⟩
  · rw [runOn_runCheck_of_keeps hp h, CheckRequest.conclude, ho]
    rfl
  · exact runCheck_keeps_of_stops hp h

theorem run_eq_of_failure (hp : WriteNothing host.programs) {f : Failure}
    (hc : r.command = .check c)
    (hf : ((host.perform r).runOn t).1 = .error f) (hio : ∀ e, f ≠ .io e) :
      ((host.run r).run t).2 = t := by
  rw [run_run_snd]
  rw [perform_check host hc] at hf ⊢
  rcases prepares_or_stops host r c t with ⟨p, h⟩ | ⟨f', h⟩
  · rw [runOn_runCheck_of_keeps hp h] at hf
    obtain ⟨e, he⟩ := conclude_failsOnly _ t f _ (Prod.ext hf rfl)
    exact absurd he (hio e)
  · exact runCheck_keeps_of_stops hp h

/-- What runs change, with programs that write no file. Listing the checks, checking without a file
for the report and formatting change nothing. A report goes to the file to which its path leads, and
the directories above that are made where they are missing; a run that fails, but not by an error of
the system, has changed nothing. Starting a configuration writes the template to one file or changes
nothing, and a file that existed is altered only if overwriting was asked for. -/
theorem run_changes (hp : WriteNothing host.programs) (hw : t.WellFormed)
    (hd : t.get? host.cwd = some .directory) (r : Request) :
    let ran := (host.run r).run t
    (r.command = .checks → ran.2 = t) ∧
    (∀ f, r.command = .fmt f → ran.2 = t) ∧
    (∀ c, r.command = .check c → c.output = none → ran.2 = t) ∧
    (∀ c path, r.command = .check c → c.output = some path → Outputs host.cwd path t ran.2) ∧
    (∀ c f, r.command = .check c → ((host.perform r).runOn t).1 = .error f → (∀ e, f ≠ .io e) →
      ran.2 = t) ∧
    (∀ i, r.command = .init i → StartsConfig host.cwd i t ran ∧
      (i.force = false → ∀ k bytes mode, t.get? k = some (.file bytes mode) →
        ran.2.get? k = some (.file bytes mode))) := by
  intro ran
  have hran : ran.2 = ((host.perform r).runOn t).2 := run_run_snd host r t
  refine ⟨fun hc => ?_, fun f hc => ?_, fun c hc ho => run_eq_of_no_output hp hc ho,
    fun c path hc ho => outputs_run hp hw hd hc ho,
      fun c f hc hf hio => run_eq_of_failure hp hc hf hio,
    fun i hc => ?_⟩
  · rw [hran, Host.perform, hc]
    rfl
  · rw [hran, Host.perform, hc]
    exact keeps_runFormat hp r f t
  · have hstarts : StartsConfig host.cwd i t ran := startsConfig_run hw hd hc
    refine ⟨hstarts, fun hforce k bytes mode hk => ?_⟩
    rcases hstarts with ⟨-, l, -, hputs, hfree⟩ | ⟨-, hkept⟩
    · have hkl : k ≠ l := by
        rintro rfl
        cases (hfree hforce).symm.trans hk
      rw [hputs.others k hkl, hk]
    · rw [hkept, hk]

end Runs

/-- A project with a script and some notes. -/
def notedProject : FileTree :=
  ⟨[(["a.sh".toList], .file "#!/bin/bash\n".toUTF8 0o755),
    (["notes.txt".toList], .file "Notes.\n".toUTF8 0o644)]⟩

/-- A check of the script that writes its report to a file. -/
def notedCheck : CheckRequest where
  path := "a.sh"
  output := some "out/report.txt"
  noSyntax := true

/-- What the run has settled. -/
def notedRun : Prepared where
  config := {}
  filter := ⟨["sh", "py"], []⟩
  tree := notedProject
  candidates := [⟨"/a.sh", "sh"⟩]

theorem wellFormed_notedProject : notedProject.WellFormed := by
  decide

theorem prepares_notedRun :
    Prepares {} { noConfig := true, command := .check notedCheck } notedCheck notedProject
      notedRun where
  config := rfl
  filter := buildFilter_standard
  shell := rfl
  scan := by
    have hname : IsPathOf "a.sh" [] "a.sh".toList := by decide
    have hlocate : notedProject.locate [] "a.sh" = .ok ["a.sh".toList] := by
      rw [FileTree.locate, hname.spot_eq, List.nil_append, FileTree.follow_file (by decide) rfl]
      rfl
    show scan notedProject [] ⟨["sh", "py"], []⟩ false "a.sh" = _
    simp only [scan, hlocate]
    rfl
  found := List.cons_ne_nil _ _

/-- The report is written to a new file in a new directory. -/
theorem run_notedCheck :
    ((Host.run {} { noConfig := true, command := .check notedCheck }).run notedProject).2 =
      (notedProject.set ["out".toList] .directory).put ["out".toList, "report.txt".toList]
        (notedRun.report {} { noConfig := true, command := .check notedCheck }
          notedCheck).toUTF8 := by
  have hdir : IsPathOf "out" [] "out".toList := by decide
  have hpath : IsPathOf "out/report.txt" ["out".toList] "report.txt".toList := by decide
  have hwrite := IsPathOf.runOn_writeFile wellFormed_notedProject [] hdir hpath (by decide) rfl
    (notedRun.report {} { noConfig := true, command := .check notedCheck } notedCheck)
  rw [run_run_snd, perform_check {} rfl,
    runOn_runCheck_of_keeps writeNothing_noPrograms prepares_notedRun]
  show ((writeFile [] "out/report.txt"
    (notedRun.report {} { noConfig := true, command := .check notedCheck }
    notedCheck) >>= fun _ => pure _ : Action Outlet).runOn notedProject).2 = _
  rw [runOn_bind, hwrite]
  rfl

/-- A configuration can be started there. -/
theorem exitCode_init_notedProject :
    ((Host.run {} { noConfig := true, command := .init {} }).run notedProject).1.exitCode =
      .success := by
  have hname : IsPathOf ".shell-guard.toml" [] ".shell-guard.toml".toList := by decide
  have hfree : notedProject.follow maxLinks [] ([] ++ [".shell-guard.toml".toList]) =
      .ok (.free [".shell-guard.toml".toList]) :=
    FileTree.follow_free (by decide) rfl
  have hhas : notedProject.hasPath [] ".shell-guard.toml" = false := by
    rw [FileTree.hasPath, FileTree.entryAt?, FileTree.locate, hname.spot_eq, hfree]
    rfl
  have hinit := runOn_runInit {} { noConfig := true, command := .init {} } ⟨".shell-guard.toml",
    false⟩ notedProject
  rw [hhas, hname.write_of_free hfree] at hinit
  rw [exitCode_run, perform_init {} rfl, Course.runOn_action, hinit]
  rfl

/-- In this project a check writes its report to a new file in a new directory and leaves the rest,
a check without a file for its report changes nothing, and a configuration is started, but not in
the place of the notes. -/
theorem run_changes_notedProject :
    let ran (command : Command) := (Host.run {} { noConfig := true, command }).run notedProject
    WriteNothing noPrograms ∧ notedProject.WellFormed ∧ notedProject.get? [] = some .directory ∧
      Outputs [] "out/report.txt" notedProject (ran (.check notedCheck)).2 ∧
      (∃ bytes, (ran (.check notedCheck)).2.get? ["out".toList, "report.txt".toList] =
        some (.file bytes 0o644)) ∧
      (ran (.check { notedCheck with output := none })).2 = notedProject ∧
      StartsConfig [] {} notedProject (ran (.init {})) ∧ (ran (.init {})).1.exitCode = .success ∧
      (ran (.init { output := "notes.txt" })).2.get? ["notes.txt".toList] =
        some (.file "Notes.\n".toUTF8 0o644) := by
  have hw := wellFormed_notedProject
  have hp : WriteNothing (Host.programs {}) := writeNothing_noPrograms
  have hchanges (command : Command) := @run_changes {} notedProject hp hw rfl
    { noConfig := true, command }
  have hcheck := hchanges (.check notedCheck)
  have hplain := hchanges (.check { notedCheck with output := none })
  have hinit := hchanges (.init {})
  have hnotes := hchanges (.init { output := "notes.txt" })
  refine ⟨hp, hw, rfl, hcheck.2.2.2.1 _ _ rfl rfl, ?_, hplain.2.2.1 _ rfl rfl,
    (hinit.2.2.2.2.2 _ rfl).1, ?_,
    (hnotes.2.2.2.2.2 _ rfl).2 rfl _ _ _ rfl⟩
  · refine ⟨(notedRun.report {} { noConfig := true, command := .check notedCheck }
      notedCheck).toUTF8, ?_⟩
    show ((Host.run {} { noConfig := true, command := .check notedCheck }).run notedProject).2.get?
      _ = _
    rw [run_notedCheck]
    rfl
  · exact exitCode_init_notedProject

end ScriptLint
