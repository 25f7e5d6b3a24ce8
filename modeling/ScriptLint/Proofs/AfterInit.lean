import ScriptLint.Proofs.Changes
import ScriptLint.Proofs.DisabledSyntax
import ScriptLint.Proofs.TwinRuns

/-!
Runs after a configuration has been started. Main statements: `run_after_init`, the template in the
place of a missing configuration changes nothing of what a later run shows but for what it says
about the configuration in its log, and `not_initUnnoticed`, where it does.
-/

namespace ScriptLint

open ScriptLint.Action
open FileTree (Twins)

/-- The place of the project's configuration. -/
def Host.projectFile (host : Host) : Location :=
  host.cwd ++ [Config.projectFileName.toList]

theorem isName_projectFileName : IsName Config.projectFileName.toList := by
  decide

theorem FileTree.isFile_iff {t : FileTree} {cwd : Location} {path : String} :
    t.isFile cwd path = true ↔ ∃ l bytes mode, t.locate cwd path = .ok l ∧
      t.get? l = some (.file bytes mode) := by
  rw [isFile, entryAt?]
  cases t.locate cwd path with
  | error e => simp
  | ok l =>
    cases hg : t.get? l with
    | none => simp [hg]
    | some e => cases e <;> simp [hg]

theorem hidePatterns_templateExcludes :
    HidePatterns Config.templateExcludes Config.hiddenNames where
  globs := Config.mapM_ofPattern_templateExcludes
  isName := by decide

theorem hidePatterns_nil : HidePatterns [] [] where
  globs := rfl
  isName := by simp

/-! ## The configuration in both trees -/

section Loading

variable {host : Host} {r : Request} {t t' : FileTree} {l : Location} {mode : Nat}

/-- There is no file with a configuration, and no link leads to the place of the project's own. -/
structure Unconfigured (host : Host) (t : FileTree) : Prop where
  noFile : ∀ path ∈ Config.candidates (host.configFiles t), t.isFile host.cwd path = false
  noLinkTo : t.NoLinkTo host.projectFile

theorem loadConfig_of_findConfig {loaded : LoadedConfig} (h : host.findConfig t r = .ok loaded) :
    host.loadConfig t r = .ok (if r.noConfig then {} else loaded.config) := by
  unfold Host.loadConfig
  split
  · rfl
  · rw [h]
    rfl

theorem findConfig_of_unconfigured (hu : Unconfigured host t) (hr : r.config = none) :
    host.findConfig t r = .ok {} := by
  have hfirst : (Config.candidates (host.configFiles t)).find? (host.configFiles t).isFile =
      none := by
    refine List.find?_eq_none.mpr fun path hm => ?_
    show ¬ t.isFile host.cwd path = true
    rw [hu.noFile path hm]
    exact Bool.false_ne_true
  simp only [Host.findConfig, hr, Config.load, hfirst]

/-- The configuration in a file with a text that gives one. -/
theorem loadFrom_of_file {path text : String} {config : Config}
    (hl : t.locate host.cwd path = .ok l)
    (hg : t.get? l = some (.file text.toUTF8 mode)) (hp : Config.parse text = .ok config) :
    Config.loadFrom (host.configFiles t) path = .ok { config, source := some path } := by
  have hread : (host.configFiles t).read path = .ok text := by
    show t.readText host.cwd path = .ok text
    have hbytes : t.read host.cwd path = .ok text.toUTF8 := by
      simp only [FileTree.read, hl, bind, Except.bind, hg]
      rfl
    simp only [FileTree.readText, hbytes, bind, Except.bind, Utf8.decode?_toUTF8]
    rfl
  unfold Config.loadFrom
  rw [hread]
  exact bind_eq_ok_iff.mpr ⟨text, rfl, bind_eq_ok_iff.mpr ⟨config, hp, rfl⟩⟩

/-- The template is found in its place, if its path is not too long. -/
theorem findConfig_of_template (hcwd : ∀ n ∈ host.cwd, IsName n)
    (hfits : isTooLong host.projectFile.toPath = false) (hr : r.config = none) (hw : t'.WellFormed)
    (hfile : t'.get? host.projectFile = some (.file Config.template.toUTF8 mode)) :
    host.findConfig t' r = .ok { config := ({} : Config).withPatterns Config.templateExcludes
                                 source := some host.projectFile.toPath } := by
  have hlocate : t'.locate host.cwd host.projectFile.toPath = .ok host.projectFile :=
    (hw.fileAt hfile).locate_eq_ok_iff.mpr ⟨hfits, rfl⟩
  have hfirst : (Config.candidates (host.configFiles t')).find? (host.configFiles t').isFile =
      some host.projectFile.toPath := by
    have hjoin : Path.join host.cwd.toPath Config.projectFileName = host.projectFile.toPath := by
      have hjoin := Location.join_toPath hcwd isName_projectFileName
      rwa [String.ofList_toList] at hjoin
    simp only [Config.candidates, Host.configFiles, Option.map_some, Option.toList_some,
      List.singleton_append, hjoin]
    exact List.find?_cons_of_pos (FileTree.isFile_iff.mpr ⟨_, _, _, hlocate, hfile⟩)
  simp only [Host.findConfig, hr, Config.load, hfirst]
  exact loadFrom_of_file hlocate hfile Config.parse_template

/-- With the template in its place, the configuration has the patterns of the template, or it is not
found for the length of its path. -/
theorem findConfig_cases (hu : Unconfigured host t) (hr : r.config = none)
    (h : Twins host.projectFile t t')
    (hfile : t'.get? host.projectFile = some (.file Config.template.toUTF8 mode)) :
    host.findConfig t' r = .ok {} ∨ ∃ source,
      host.findConfig t' r =
        .ok { config := ({} : Config).withPatterns Config.templateExcludes, source } := by
  simp only [Host.findConfig, hr, Config.load]
  cases hfirst : (Config.candidates (host.configFiles t')).find? (host.configFiles t').isFile with
  | none => exact .inl rfl
  | some path =>
    obtain ⟨l, bytes, mode', hl, hg⟩ := FileTree.isFile_iff.mp (List.find?_some hfirst)
    by_cases hplace : l = host.projectFile
    · subst hplace
      exact .inr ⟨_, loadFrom_of_file hl hfile Config.parse_template⟩
    · -- Any other file is a configuration in the first tree already.
      have hbefore : t.isFile host.cwd path = true :=
        FileTree.isFile_iff.mpr ⟨l, bytes, mode', (h.beside.locate_iff hplace).mp hl,
          (h.beside.others l hplace).symm.trans hg⟩
      cases (hu.noFile path (List.mem_of_find?_eq_some hfirst)).symm.trans hbefore

theorem loadConfig_of_unconfigured (hu : Unconfigured host t) (hr : r.config = none) :
    host.loadConfig t r = .ok {} := by
  have hload := loadConfig_of_findConfig (findConfig_of_unconfigured hu hr)
  rwa [ite_self] at hload

/-- With the template in its place, a run has the patterns of the template, or none. -/
theorem exists_loadConfig_of_template (hu : Unconfigured host t) (hr : r.config = none)
    (h : Twins host.projectFile t t')
    (hfile : t'.get? host.projectFile = some (.file Config.template.toUTF8 mode)) :
    ∃ patterns hidden, HidePatterns patterns hidden ∧
      host.loadConfig t' r = .ok (({} : Config).withPatterns patterns) ∧
      (hidden = [] ∨ hidden = Config.hiddenNames) := by
  rcases findConfig_cases hu hr h hfile with hfound | ⟨source, hfound⟩
  · have hload := loadConfig_of_findConfig hfound
    rw [ite_self] at hload
    exact ⟨[], [], hidePatterns_nil, hload, .inl rfl⟩
  · have hload := loadConfig_of_findConfig hfound
    split at hload
    · exact ⟨[], [], hidePatterns_nil, hload, .inl rfl⟩
    · exact ⟨_, _, hidePatterns_templateExcludes, hload, .inr rfl⟩

end Loading

/-! ## Starting a configuration -/

section Starting

variable {host : Host} {r₀ : Request} {t : FileTree}

/-- If the configuration's own name is that of a link, there is something where the link leads. -/
def NotDangling (host : Host) (t : FileTree) : Prop :=
  ∀ target l, t.get? host.projectFile = some (.link target) →
    t.follow maxLinks [] host.projectFile ≠ .ok (.free l)

theorem spot_projectFileName (hw : t.WellFormed) (hd : t.get? host.cwd = some .directory) :
    t.spot host.cwd Config.projectFileName = t.follow maxLinks [] host.projectFile := by
  have hsplit : Path.splitSlash Config.projectFileName.toList =
      [Config.projectFileName.toList] := by decide
  rw [FileTree.spot_of_checkPath (by decide), FileTree.followFrom, if_neg (by decide), hsplit,
    Host.projectFile, hw.follow_append hd]

/-- The name of the configuration leads to a free place only if that place is its own. -/
theorem eq_projectFile_of_free (hw : t.WellFormed) (hd : t.get? host.cwd = some .directory)
    (hn : NotDangling host t)
    {l : Location} (h : t.spot host.cwd Config.projectFileName = .ok (.free l)) : l =
      host.projectFile := by
  rw [spot_projectFileName hw hd] at h
  -- The way to the directory is known, the name is one more step.
  have hstep := h
  rw [Host.projectFile, hw.follow_append hd,
    FileTree.follow_name (by decide) (by decide) (by decide)] at hstep
  cases hg : t.get? (host.cwd ++ [Config.projectFileName.toList]) with
  | none =>
    rw [hg] at hstep
    exact (Spot.free.inj (Except.ok.inj hstep)).symm
  | some e =>
    rw [hg] at hstep
    cases e with
    | directory =>
      rw [FileTree.follow_nil] at hstep
      cases hstep
    | file bytes mode => cases hstep
    | link target => exact absurd h (hn target l hg)

theorem FileTree.hasPath_of_locate {l : Location} {path : String} (hw : t.WellFormed)
    (hd : t.get? host.cwd = some .directory) (hl : t.locate host.cwd path = .ok l) :
    t.hasPath host.cwd path = true := by
  rw [FileTree.hasPath, FileTree.entryAt?, hl]
  rcases FileTree.get?_of_locate hw hd hl with hdir | ⟨_, _, hfile⟩
  · simp [hdir]
  · simp [hfile]

theorem run_init_eq {i : InitRequest} (hr : r₀.command = .init i) (t : FileTree) :
    ((host.run r₀).run t).2 =
      if t.hasPath host.cwd i.output && !i.force then t
      else
        match t.write host.cwd i.output Config.template.toUTF8 with
        | .ok t' => t'
        | .error _ => t := by
  rw [run_run_snd, perform_init host hr, Course.runOn_action, runOn_runInit]
  split
  · rfl
  · cases t.write host.cwd i.output Config.template.toUTF8 with
    | ok t' => rfl
    | error e => rfl

/-- Starting a configuration fills the place to which its name leads if that is free, and else
changes nothing. -/
theorem run_init_snd (hw : t.WellFormed) (hd : t.get? host.cwd = some .directory)
    (hr : r₀.command = .init {}) :
    ((host.run r₀).run t).2 =
      match t.spot host.cwd Config.projectFileName with
      | .ok (.free l) => t.put l Config.template.toUTF8
      | _ => t := by
  have hlast : splitLast? Config.projectFileName = some ([], Config.projectFileName.toList,
      false) := by decide
  have hcheck : FileTree.checkPath Config.projectFileName = .ok () := by decide
  -- The defaults are spelt out, so that the name of the file shows.
  have hran := @run_init_eq host r₀ ⟨Config.projectFileName, false⟩ hr t
  simp only at hran
  rw [hran]
  generalize Config.template.toUTF8 = bytes
  cases hspot : t.spot host.cwd Config.projectFileName with
  | error e =>
    have hhas : t.hasPath host.cwd Config.projectFileName = false := by
      rw [FileTree.hasPath, FileTree.entryAt?, FileTree.locate, hspot]
      rfl
    have hwrite : t.write host.cwd Config.projectFileName bytes = .error e := by
      rw [FileTree.write, FileTree.writeLocation, hcheck, hlast, hspot]
      rfl
    rw [hhas, hwrite]
    rfl
  | ok spot =>
    cases spot with
    | taken l =>
      have hlocate : t.locate host.cwd Config.projectFileName = .ok l := by
        rw [FileTree.locate, hspot]
      rw [FileTree.hasPath_of_locate hw hd hlocate]
      rfl
    | free l =>
      have hhas : t.hasPath host.cwd Config.projectFileName = false := by
        rw [FileTree.hasPath, FileTree.entryAt?, FileTree.locate, hspot]
        rfl
      have hwrite : t.write host.cwd Config.projectFileName bytes = .ok (t.put l bytes) := by
        rw [FileTree.write, FileTree.writeLocation, hcheck, hlast, hspot]
        rfl
      rw [hhas, hwrite]
      rfl

/-- A file in a place that was free. -/
theorem FileTree.WellFormed.put_free {l : Location} {name : List Char} (hw : t.WellFormed)
    (hd : t.get? l = some .directory) (hn : IsName name) (hfree : t.get? (l ++ [name]) = none)
    (bytes : ByteArray) :
    Twins (l ++ [name]) t (t.put (l ++ [name]) bytes) ∧
      (t.put (l ++ [name]) bytes).get? (l ++ [name]) = some (.file bytes FileTree.newFileMode) := by
  have hget (k : Location) (e : Entry) :=
    FileTree.get?_set (t := t) (k := k) (e := e) (List.concat_ne_nil name l)
  have hput : t.put (l ++ [name]) bytes =
      t.set (l ++ [name]) (.file bytes FileTree.newFileMode) := by
    rw [FileTree.put, hfree]
  have hfile := (hget (l ++ [name]) (.file bytes FileTree.newFileMode)).trans (if_pos rfl)
  rw [hput]
  refine ⟨⟨⟨hfree, ⟨_, _, hfile⟩, fun k hk => (hget k _).trans (if_neg hk)⟩, hw, ?_⟩, hfile⟩
  exact hw.set hd hn (by simp [hfree]) _

/-- What starting a configuration leaves: the tree as it was, or the template in the place of the
configuration, where there was nothing before. -/
theorem run_init_cases (hw : t.WellFormed) (hd : t.get? host.cwd = some .directory)
    (hn : NotDangling host t) (hr : r₀.command = .init {}) :
    ((host.run r₀).run t).2 = t ∨
      Twins host.projectFile t ((host.run r₀).run t).2 ∧
        ∃ mode, ((host.run r₀).run t).2.get? host.projectFile =
          some (.file Config.template.toUTF8 mode) := by
  rw [run_init_snd hw hd hr]
  split
  · next l hfree =>
    right
    obtain rfl := eq_projectFile_of_free hw hd hn hfree
    rw [spot_projectFileName hw hd] at hfree
    have h := hw.put_free hd isName_projectFileName (FileTree.get?_of_follow_free hfree).2
      Config.template.toUTF8
    exact ⟨h.1, _, h.2⟩
  · exact .inl rfl

end Starting

/-! ## A run after starting a configuration -/

section Law

variable {host : Host} {r r₀ : Request} {t : FileTree}

/-- What a request looks at if there is no configuration. -/
structure Target where
  path : String
  types : List String
  excludes : List String

def Command.target? : Command → Option Target
  | .check c => some ⟨c.path, c.types.getD ({} : ScanConfig).extensions, c.exclude⟩
  | .fmt f => some ⟨f.path, f.types.getD ({} : FormatConfig).extensions, f.exclude⟩
  | .init _ => none
  | .checks => none

/-- A request that looks at something checks it or formats it. -/
theorem Command.target?_eq_some {command : Command} {target : Target}
    (h : command.target? = some target) :
    (∃ c : CheckRequest, command = .check c ∧
      target = ⟨c.path, c.types.getD ({} : ScanConfig).extensions, c.exclude⟩) ∨
    ∃ f : FmtRequest, command = .fmt f ∧
      target = ⟨f.path, f.types.getD ({} : FormatConfig).extensions, f.exclude⟩ := by
  cases command with
  | check c => exact .inl ⟨c, rfl, (Option.some.inj h).symm⟩
  | fmt f => exact .inr ⟨f, rfl, (Option.some.inj h).symm⟩
  | init i => cases h
  | checks => cases h

/-- Such a request loads the configuration before it does anything else. -/
theorem exists_perform_eq_configure (host : Host) {target : Target}
    (h : r.command.target? = some target) :
    ∃ next : Config → Course Outlet, host.perform r = host.configure r >>= next := by
  rcases Command.target?_eq_some h with ⟨c, hc, -⟩ | ⟨f, hf, -⟩
  · exact ⟨_, perform_check host hc⟩
  · exact ⟨_, perform_fmt host hf⟩

/-- The candidates that a request comes to. -/
inductive Host.Finds (host : Host) (r : Request) (t : FileTree) : List Candidate → Prop
  | check {c : CheckRequest} {p : Prepared} (hc : r.command = .check c)
    (h : Prepares host r c t p) :
      Finds host r t p.candidates
  | fmt {f : FmtRequest} {cs : List Candidate} (hf : r.command = .fmt f) (h : f.Finds host r t cs) :
      Finds host r t cs

/-- A request to check or to format that has nothing to do with the project's configuration: it
names no configuration, neither its path nor its types are those of the project's own, its patterns
can be compiled with those of the template if they can be compiled without them, and its candidates
are not in directories that the template leaves out. -/
structure Unconcerned (host : Host) (r : Request) (t : FileTree) : Prop where
  noConfig : r.config = none
  target : ∃ target, r.command.target? = some target ∧
    t.spot host.cwd target.path ≠ .ok (.free host.projectFile) ∧
      "toml" ∉ normalizeExtensions target.types ∧
    ∀ globs, target.excludes.mapM Glob.ofPattern = .ok globs →
      host.uncompilable (Config.hiddenNames.map .allBelow ++ globs) = host.uncompilable globs
  candidates : ∀ cs, host.Finds r t cs →
    ∀ cand ∈ cs, ∀ name ∈ Config.hiddenNames, name ∉ namesAbove cand.path

/-- The path for the report, if there is one, passes by the place of the project's configuration in
the tree that the run leaves. -/
def OutputPasses (host : Host) (r : Request) (t : FileTree) : Prop :=
  ∀ c out, r.command = .check c → c.output = some out →
    ((host.run r).run t).2.PassesBy host.projectFile host.cwd out

theorem extension?_projectFile (hn : ∀ n ∈ host.projectFile, IsName n) :
    Path.extension? host.projectFile.toPath = some "toml" := by
  rw [Host.projectFile, Location.extension?_toPath hn]
  decide

/-- If only the project has a place for a configuration, it is enough that its name leads to a free
place. -/
theorem unconfigured_of_free (huser : host.userDir = none) (hcwd : ∀ n ∈ host.cwd, IsName n)
    (hfree : t.follow maxLinks [] host.projectFile = .ok (.free l))
    (hno : t.NoLinkTo host.projectFile) :
    Unconfigured host t := by
  refine ⟨fun path hm => ?_, hno⟩
  have hpath : path = host.projectFile.toPath := by
    have hjoin := Location.join_toPath hcwd isName_projectFileName
    rw [String.ofList_toList] at hjoin
    simp only [Config.candidates, Host.configFiles, huser, Option.map_some, Option.map_none,
      Option.toList_some, Option.toList_none, List.append_nil, List.mem_singleton] at hm
    exact hm.trans hjoin
  have hname : ∀ n ∈ host.projectFile, IsName n := by
    intro n hn
    rcases List.mem_append.mp hn with hn | hn
    · exact hcwd n hn
    · exact List.mem_singleton.mp hn ▸ isName_projectFileName
  subst hpath
  refine eq_false_of_ne_true fun hfile => ?_
  obtain ⟨k, _, _, hk, _⟩ := FileTree.isFile_iff.mp hfile
  have htaken := ((FileTree.locate_toPath hname).mp hk).2
  cases hfree.symm.trans htaken

/-- A check of one file meets that file at most. -/
theorem unconcerned_of_file (hp : WriteNothing host.programs) (hc : r.command = .check c)
    (hr : r.config = none)
    (htypes : "toml" ∉ normalizeExtensions (c.types.getD ({} : ScanConfig).extensions))
    (hpath : t.spot host.cwd c.path ≠ .ok (.free host.projectFile))
    (hdir : t.isDirectory host.cwd c.path = false)
    (hcompiles : ∀ globs, c.exclude.mapM Glob.ofPattern = .ok globs →
      host.uncompilable (Config.hiddenNames.map .allBelow ++ globs) = host.uncompilable globs)
    (hfile : ∀ l, t.locate host.cwd c.path = .ok l →
      ∀ name ∈ Config.hiddenNames, name ∉ namesAbove l.toPath) :
    Unconcerned host r t := by
  refine ⟨hr, ⟨⟨c.path, _, c.exclude⟩, by rw [hc]; rfl, hpath, htypes, hcompiles⟩,
    fun cs hfinds cand hm => ?_⟩
  cases hfinds with
  | @check c' p hc' h =>
    cases hc.symm.trans hc'
    have hscan := h.scan
    have htree : p.tree = t := (congrArg Prod.snd h.shell).symm.trans (hp.runOn_tryShell _ t)
    rw [htree] at hscan
    obtain ⟨l, hl, _, hcs⟩ := eq_singleton_of_scan hdir hscan
    rw [hcs] at hm
    cases List.mem_singleton.mp hm
    exact hfile l hl
  | fmt hf _ => cases hc.symm.trans hf

/-- A path of one name passes by any other place, unless it is that of a link. -/
theorem passesBy_of_name {t : FileTree} {k cwd : Location} {path : String} (hn : IsName path.toList)
    (hrel : Path.isAbsolute path = false) (habove : pathsAbove path = [])
    (hlink : ∀ target, t.get? (cwd ++ [path.toList]) ≠ some (.link target)) :
      t.PassesBy k cwd path := by
  refine ⟨by simp [habove], fun hmeets => ?_⟩
  rw [FileTree.PathMeets, hrel, if_neg Bool.false_ne_true,
    Path.splitSlash_of_no_slash hn.noSlash] at hmeets
  generalize path.toList = name at hmeets hlink
  cases hmeets with
  | here _ _ _ hr => exact hr rfl rfl
  | filler _ h => cases h
  | directory _ _ _ h => cases h
  | link _ _ hg _ => exact hlink _ hg
  | parent h => cases h

/-- What is said about a configuration is not for runs at the level of warnings. -/
theorem shownLog_configLog (hf : host.logFilter = none) (hr : r.quiet = true ∨ r.verbose = 0)
    (t : FileTree) :
    host.shownLog r (host.configLog t r) = [] := by
  have hlevel : ∀ e ∈ host.configLog t r, e.level = .debug ∨ e.level = .info := by
    unfold Host.configLog
    split
    · simp
    · split <;> simp
  refine List.filter_eq_nil_iff.mpr fun e hm => ?_
  rw [hf]
  have hquiet : LogLevel.ofVerbosity r.verbose r.quiet = .error ∨
      LogLevel.ofVerbosity r.verbose r.quiet = .warn := by
    unfold LogLevel.ofVerbosity
    rcases hr with hr | hr
    · simp [hr]
    · cases r.quiet <;> simp [hr]
  rcases hquiet with hquiet | hquiet <;> rcases hlevel e hm with he | he <;>
    exact fun h => by simp [hquiet, he, LogLevel.shows, LogLevel.depth] at h

/-- What the user sees of two runs that agree but for what they say about the configuration. -/
theorem run_of_agreeAside {t t' : FileTree} (h : AgreeAside host r t t' (host.perform r)) :
    ((host.run r).run t').1.withoutLog = ((host.run r).run t).1.withoutLog ∧
      ∃ rest, ((host.run r).run t).1.log = host.shownLog r (host.configLog t r) ++ rest ∧
        ((host.run r).run t').1.log = host.shownLog r (host.configLog t' r) ++ rest := by
  obtain ⟨hended, events, hevents, hevents'⟩ := h
  have hlog (t : FileTree) : host.shownLog r
      (((host.configLog t r).map Event.logged ++ events).filterMap Event.entry?) =
        host.shownLog r (host.configLog t r) ++
          host.shownLog r (events.filterMap Event.entry?) := by
    have hentries : ((host.configLog t r).map Event.logged).filterMap Event.entry? =
        host.configLog t r := by
      rw [List.filterMap_map]
      exact List.filterMap_some
    rw [List.filterMap_append, hentries, Host.shownLog, List.filter_append]
    rfl
  refine ⟨by rw [withoutLog_run, withoutLog_run, hended],
    host.shownLog r (events.filterMap Event.entry?), ?_, ?_⟩
  · rw [log_run, hevents, hlog]
  · rw [log_run, hevents', hlog]

theorem RunResult.eq_of_log {ran ran' : RunResult} (h : ran.withoutLog = ran'.withoutLog)
    (hl : ran.log = ran'.log) :
    ran = ran' := by
  cases ran
  cases ran'
  cases h
  cases hl
  rfl

/-- A request that has nothing to do with the configuration takes the same course after its
start. -/
theorem agreeAside_after_init (ho : Overlook host.cwd host.projectFile host.programs)
    (hw : t.WellFormed)
    (hd : t.get? host.cwd = some .directory) (hu : Unconfigured host t) (hn : NotDangling host t)
    (hinit : r₀.command = .init {}) (hr : Unconcerned host r t) (hout : OutputPasses host r t) :
    AgreeAside host r t ((host.run r₀).run t).2 (host.perform r) := by
  obtain ⟨target, htarget, hpath, htypes, hcompiles⟩ := hr.target
  have hload := loadConfig_of_unconfigured hu hr.noConfig
  rcases run_init_cases hw hd hn hinit with hsame | ⟨h, mode, hfile⟩
  · obtain ⟨next, hperform⟩ := exists_perform_eq_configure host htarget
    rw [hsame, hperform]
    exact agreeAside_of_configure hload hload ⟨rfl, rfl⟩
  generalize ((host.run r₀).run t).2 = t' at h hfile ⊢
  obtain ⟨patterns, hidden, hp, hload', hhidden⟩ :=
    exists_loadConfig_of_template hu hr.noConfig h hfile
  have hcompiles' : ∀ globs, target.excludes.mapM Glob.ofPattern = .ok globs →
      host.uncompilable (hidden.map .allBelow ++ globs) = host.uncompilable globs := by
    rcases hhidden with rfl | rfl
    · exact fun _ _ => rfl
    · exact hcompiles
  have hcands : ∀ cs, host.Finds r t cs →
      ∀ cand ∈ cs, ∀ name ∈ hidden, name ∉ namesAbove cand.path := by
    rcases hhidden with rfl | rfl
    · simp
    · exact hr.candidates
  have hext : ∀ extension ∈ normalizeExtensions target.types,
      Path.extension? host.projectFile.toPath ≠ some extension := by
    intro extension hm he
    rw [extension?_projectFile (h.wellFormed'.isName_of_get? hfile)] at he
    cases he
    exact htypes hm
  rcases Command.target?_eq_some htarget with ⟨c, hc, rfl⟩ | ⟨f, hf, rfl⟩
  · have hpasses : ∀ out, c.output = some out →
        ((runCheck host r c).runOn t).2.PassesBy host.projectFile host.cwd out := by
      intro out ho
      rw [← perform_check host hc, ← run_run_snd]
      exact hout c out hc ho
    rw [perform_check host hc]
    exact runCheck_of_twins ho h hu.noLinkTo hd hp hload hload' hcompiles' hpath hext
      (fun p hprepares => hcands _ (.check hc hprepares)) hpasses
  · rw [perform_fmt host hf]
    exact runFormat_of_twins ho h hu.noLinkTo hd hp hload hload' hcompiles' hpath hext
      fun cs hfinds => hcands cs (.fmt hf hfinds)

end Law

/-! ## A project with one script -/

/-- A host with programs that do nothing. -/
def idleHost : Host := { programs := idlePrograms }

theorem writeNothing_idleHost : WriteNothing idleHost.programs :=
  fun _ _ _ => rfl

theorem overlook_idleHost (cwd c : Location) : Overlook cwd c idleHost.programs :=
  ⟨fun _ => .pure _, fun _ _ _ => .pure _⟩

/-- A project with one script. -/
def scriptProject : FileTree :=
  ⟨[(["a.sh".toList], .file .empty 0o755)]⟩

theorem not_link_scriptProject (l : Location) (target : String) :
    scriptProject.get? l ≠ some (.link target) := by
  intro hg
  have hne : l ≠ [] := by
    rintro rfl
    cases hg
  have hm := FileTree.mem_entries_of_get? hne hg
  simp [scriptProject] at hm

theorem locate_scriptProject : scriptProject.locate [] "a.sh" = .ok ["a.sh".toList] := by
  have hsplit : Path.splitSlash "a.sh".toList = ["a.sh".toList] := by decide
  refine FileTree.locate_eq_ok_iff.mpr ⟨by decide, ?_⟩
  rw [FileTree.followFrom, if_neg (by decide), hsplit]
  exact FileTree.follow_file (by decide) rfl

theorem follow_scriptProject :
    scriptProject.follow maxLinks [] idleHost.projectFile = .ok (.free idleHost.projectFile) :=
  FileTree.follow_free isName_projectFileName rfl

theorem unconfigured_scriptProject : Unconfigured idleHost scriptProject :=
  unconfigured_of_free rfl (by simp [idleHost]) follow_scriptProject fun l target hl =>
    absurd hl (not_link_scriptProject l target)

/-- A check of the script that writes its report to a file leaves no link. -/
theorem not_link_run_scriptProject {t : FileTree} {path : String}
    (h : Outputs [] path scriptProject t) (l : Location)
    (target : String) : t.get? l ≠ some (.link target) := by
  intro hg
  rcases h l with hsame | ⟨_, ⟨_, _, hfile⟩, _⟩ | ⟨_, hdir, _⟩
  · exact not_link_scriptProject l target (hsame.symm.trans hg)
  · cases hfile.symm.trans hg
  · cases hdir.symm.trans hg

theorem unconcerned_scriptProject {r : Request} {c : CheckRequest} (hc : r.command = .check c)
    (hr : r.config = none)
    (htypes : c.types = none) (hpath : c.path = "a.sh") : Unconcerned idleHost r scriptProject := by
  have hlocate : scriptProject.locate [] c.path = .ok ["a.sh".toList] :=
    hpath ▸ locate_scriptProject
  refine unconcerned_of_file writeNothing_idleHost hc hr ?_ ?_ ?_ (fun _ _ => rfl) ?_
  · rw [htypes]
    decide
  · intro hspot
    have herr : scriptProject.locate idleHost.cwd c.path = .error .notFound := by
      rw [FileTree.locate, hspot]
    cases hlocate.symm.trans herr
  · refine eq_false_of_ne_true fun hdir => ?_
    obtain ⟨l, hl, hg⟩ := FileTree.isDirectory_iff.mp hdir
    cases hlocate.symm.trans hl
    cases hg
  · intro l hl
    cases hlocate.symm.trans hl
    decide

theorem notDangling_scriptProject : NotDangling idleHost scriptProject :=
  fun target _ hg => absurd hg (not_link_scriptProject _ target)

/-- A report that is written to a file beside the configuration. -/
theorem outputPasses_scriptProject {r : Request} {c : CheckRequest} (hc : r.command = .check c)
    (ho : c.output = some "report.txt") : OutputPasses idleHost r scriptProject := by
  intro c' out hc' ho'
  cases hc.symm.trans hc'
  cases ho.symm.trans ho'
  have hw : scriptProject.WellFormed := by decide
  have hout := outputs_run writeNothing_idleHost hw rfl hc ho
  exact passesBy_of_name (by decide) (by decide) (by decide) fun target =>
    not_link_run_scriptProject hout _ target

/-- Starting a configuration adds one file to the project. -/
theorem twins_scriptProject :
    let started := ((idleHost.run { command := .init {} }).run scriptProject).2
    Twins idleHost.projectFile scriptProject started ∧
      started.get? idleHost.projectFile =
        some (.file Config.template.toUTF8 FileTree.newFileMode) := by
  have hw : scriptProject.WellFormed := by decide
  intro started
  have hran : started = scriptProject.put idleHost.projectFile Config.template.toUTF8 := by
    refine (run_init_snd hw rfl rfl).trans ?_
    rw [spot_projectFileName hw rfl, follow_scriptProject]
  rw [hran]
  exact hw.put_free (l := idleHost.cwd) rfl isName_projectFileName rfl Config.template.toUTF8

/-- A run that shows more than warnings tells which configuration it uses, if there is one. -/
theorem shownLog_configLog_scriptProject {r : Request} (hn : r.noConfig = false)
    (hr : r.config = none) (hv : r.verbose = 1) (hq : r.quiet = false) :
    idleHost.shownLog r (idleHost.configLog scriptProject r) = [] ∧
      idleHost.shownLog r
        (idleHost.configLog ((idleHost.run { command := .init {} }).run scriptProject).2 r) =
        [{ level := .info, message := "using configuration file",
           fields := [("path", "/.shell-guard.toml")] }] := by
  have hlevel : LogLevel.ofVerbosity r.verbose r.quiet = .info := by rw [hv, hq]; rfl
  have hbefore := findConfig_of_unconfigured unconfigured_scriptProject hr
  obtain ⟨htwins, hfile⟩ := twins_scriptProject
  have hafter := findConfig_of_template (by simp [idleHost]) (by decide) hr htwins.wellFormed' hfile
  constructor
  · simp only [Host.configLog, hn, hbefore, Host.shownLog, hlevel]
    rfl
  · simp only [Host.configLog, hn]
    rw [hafter]
    simp only [Host.shownLog, hlevel]
    rfl

section Noticed

variable {t : FileTree} {l : Location}

/-- Starting a configuration goes unnoticed by requests of which more may be known. -/
def InitUnnoticed (more : Host → Request → FileTree → Prop) : Prop :=
  ∀ (host : Host) (r r₀ : Request) (t : FileTree),
    Overlook host.cwd host.projectFile host.programs → t.WellFormed →
    t.get? host.cwd = some .directory → Unconfigured host t → r₀.command = .init {} →
    Unconcerned host r t →
    more host r t → ((host.run r).run ((host.run r₀).run t).2).1 = ((host.run r).run t).1

/-- A request to check a file without a configuration and without its syntax. -/
def plainCheck (path : String) (output : Option String) : Request :=
  { noConfig := true, command := .check { path, output, noSyntax := true } }

theorem prepares_plainCheck {path : String} {cs : List Candidate}
    (hscan : scan t [] ⟨["sh", "py"], []⟩ false path = .ok cs) (hne : cs ≠ [])
    (output : Option String) :
    Prepares idleHost (plainCheck path output) { path, output, noSyntax := true } t
      ⟨{}, ⟨["sh", "py"], []⟩, t, cs⟩ where
  config := rfl
  filter := buildFilter_standard
  shell := rfl
  scan := hscan
  found := hne

theorem isPathOf_projectFileName :
    IsPathOf Config.projectFileName [] Config.projectFileName.toList := by
  decide

/-- A report below the place of the configuration is written if nothing is there. -/
theorem writeFile_below_of_free (hw : t.WellFormed)
    (hg : t.get? [Config.projectFileName.toList] = none)
    (text : String) : ((writeFile [] ".shell-guard.toml/r" text).runOn t).1 = .ok () := by
  have hpath : IsPathOf ".shell-guard.toml/r" [Config.projectFileName.toList] ['r'] := by decide
  have hwrite := IsPathOf.runOn_writeFile hw [] isPathOf_projectFileName hpath (by decide) hg text
  rw [hwrite]

/-- It is not written below a file. -/
theorem writeFile_below_of_file {bytes : ByteArray} {mode : Nat}
    (hg : t.get? [Config.projectFileName.toList] = some (.file bytes mode)) (text : String) :
    ((writeFile [] ".shell-guard.toml/r" text).runOn t).1 = .error (.io .alreadyExists) := by
  have habove : pathsAbove ".shell-guard.toml/r" = [Config.projectFileName] := by decide
  have hnew : t.newDirectory [] Config.projectFileName = .error .alreadyExists := by
    rw [isPathOf_projectFileName.newDirectory_eq, List.nil_append, hg]
    rfl
  have hdir : t.isDirectory [] Config.projectFileName = false := by
    refine eq_false_of_ne_true fun hdir => ?_
    obtain ⟨l, hl, hdir⟩ := FileTree.isDirectory_iff.mp hdir
    have htaken := (FileTree.locate_eq_ok_iff.mp hl).2
    have hsplit : Path.splitSlash Config.projectFileName.toList =
        [Config.projectFileName.toList] := by decide
    rw [FileTree.followFrom, if_neg (by decide), hsplit,
      FileTree.follow_file isName_projectFileName hg] at htaken
    cases htaken
    cases hg.symm.trans hdir
  have hmade : t.ensureDirectories [] [Config.projectFileName] = (t, .error .alreadyExists) := by
    simp only [FileTree.ensureDirectories, FileTree.ensureDirectory, FileTree.makeDirectory, hnew,
      hdir, bind, Except.bind]
    rfl
  rw [runOn_writeFile, habove, hmade]

/-- A report below the configuration can be written without it only. -/
theorem init_noticed_below : ¬ InitUnnoticed fun host _ t => NotDangling host t := by
  intro h
  have hw : scriptProject.WellFormed := by decide
  have hrun := h idleHost (plainCheck "a.sh" (some ".shell-guard.toml/r")) { command := .init {} }
    scriptProject (overlook_idleHost _ _) hw rfl unconfigured_scriptProject rfl
    (unconcerned_scriptProject rfl rfl rfl rfl) notDangling_scriptProject
  obtain ⟨htwins, hfile⟩ := twins_scriptProject
  have hscan {t : FileTree} (hl : t.locate [] "a.sh" = .ok ["a.sh".toList])
      (hg : t.get? ["a.sh".toList] = some (.file .empty 0o755)) :
      scan t [] ⟨["sh", "py"], []⟩ false "a.sh" = .ok [.ofPath "/a.sh"] := by
    simp only [scan, hl, hg]
    rfl
  have hbefore := prepares_plainCheck (hscan locate_scriptProject rfl) (List.cons_ne_nil _ _)
    (some ".shell-guard.toml/r")
  have hafter := prepares_plainCheck
    (hscan (htwins.beside.grows.locate locate_scriptProject) (htwins.beside.get?_eq rfl))
    (List.cons_ne_nil _ _)
    (some ".shell-guard.toml/r")
  have hcode := congrArg RunResult.exitCode hrun
  rw [exitCode_of_not_written rfl hafter fun hwritten => ?_, exitCode_of_written rfl hbefore ?_,
    Summary.exitCode]
    at hcode
  · split at hcode <;> cases hcode
  · intro path hpath
    cases hpath
    rw [Prepared.finalTree_of_keeps _ _ _ writeNothing_idleHost]
    exact writeFile_below_of_free hw rfl _
  · have hwritten := hwritten _ rfl
    rw [Prepared.finalTree_of_keeps _ _ _ writeNothing_idleHost] at hwritten
    cases (writeFile_below_of_file hfile _).symm.trans hwritten

/-- A project in which the name of the configuration is that of a link to a script that is
missing. -/
def danglingProject : FileTree :=
  ⟨[([Config.projectFileName.toList], .link "x.sh")]⟩

theorem follow_danglingProject :
    danglingProject.follow maxLinks [] idleHost.projectFile = .ok (.free ["x.sh".toList]) := by
  have hsplit : Path.splitSlash "x.sh".toList = ["x.sh".toList] := by decide
  refine (FileTree.follow_last_link isName_projectFileName rfl).trans ?_
  rw [if_neg (by decide), hsplit]
  exact FileTree.follow_free (by decide) rfl

theorem eq_link_of_danglingProject {e : Entry} (hl : l ≠ [])
    (hg : danglingProject.get? l = some e) :
    l = [Config.projectFileName.toList] ∧ e = .link "x.sh" := by
  simpa [danglingProject] using FileTree.mem_entries_of_get? hl hg

theorem unconfigured_danglingProject : Unconfigured idleHost danglingProject := by
  refine unconfigured_of_free rfl (by simp [idleHost]) follow_danglingProject fun l target hg
    hfree => ?_
  have hl : l ≠ [] := by
    rintro rfl
    cases hg
  obtain ⟨rfl, -⟩ := eq_link_of_danglingProject hl hg
  cases follow_danglingProject.symm.trans hfree

/-- There are no candidates in a project with nothing but a link. -/
theorem not_prepares_danglingProject {r : Request} {c : CheckRequest} (p : Prepared) :
    ¬ Prepares idleHost r c danglingProject p := by
  intro h
  have hscan := h.scan
  have htree : p.tree = danglingProject :=
    (congrArg Prod.snd h.shell).symm.trans (writeNothing_idleHost.runOn_tryShell _ _)
  rw [htree] at hscan
  obtain ⟨cand, hm⟩ := List.exists_mem_of_ne_nil _ h.found
  obtain ⟨way, k, -, hf⟩ := exists_fileAt_of_mem_scan (by decide) rfl hscan hm
  obtain ⟨bytes, mode, hfile⟩ := hf.file
  have hk : k ≠ [] := by
    rintro rfl
    cases hfile
  cases (eq_link_of_danglingProject hk hfile).2

theorem spot_current (t : FileTree) : t.spot [] "." = .ok (.taken []) := by
  cbv

theorem unconcerned_danglingProject :
    Unconcerned idleHost (plainCheck "." none) danglingProject := by
  refine ⟨rfl, ⟨_, rfl, ?_, by decide, fun _ _ => rfl⟩, fun cs hfinds => ?_⟩
  · intro hfree
    cases (spot_current danglingProject).symm.trans hfree
  · cases hfinds with
    | check _ hprepares => exact absurd hprepares (not_prepares_danglingProject _)
    | fmt hf _ => cases hf

/-- A script in the current directory is a candidate there. -/
theorem exists_scan_current {bytes : ByteArray} {mode : Nat} (hw : t.WellFormed)
    (hg : t.get? ["x.sh".toList] = some (.file bytes mode)) :
    ∃ cs, scan t [] ⟨["sh", "py"], []⟩ false "." = .ok cs ∧ cs ≠ [] := by
  have hroot : t.locate [] "." = .ok [] := by rw [FileTree.locate, spot_current]
  have hscan : scan t [] ⟨["sh", "py"], []⟩ false "." =
      .ok (scanDirectory t ⟨["sh", "py"], []⟩ false []) :=
    (scan_directory hroot (FileTree.get?_nil t)).trans (if_neg (by decide))
  have hmem : "/x.sh" ∈ (scanDirectory t ⟨["sh", "py"], []⟩ false []).map Candidate.path :=
    (mem_path_scanDirectory hw (FileTree.get?_nil t) (by decide)).mpr ⟨["x.sh".toList], by decide,
      hw.visible_of_file (FileTree.get?_nil t) (by decide) hg false, by decide⟩
  exact ⟨_, hscan, by rintro hnil; simp [hnil] at hmem⟩

/-- The file that comes to be where a dangling link leads is a new candidate. -/
theorem init_noticed_link : ¬ InitUnnoticed OutputPasses := by
  intro h
  have hw : danglingProject.WellFormed := by decide
  have hran : ((idleHost.run { command := .init {} }).run danglingProject).2 =
      danglingProject.put ([] ++ ["x.sh".toList]) Config.template.toUTF8 := by
    rw [run_init_snd hw rfl rfl, spot_projectFileName hw rfl, follow_danglingProject]
    rfl
  have hrun := h idleHost (plainCheck "." none) { command := .init {} } danglingProject
    (overlook_idleHost _ _) hw rfl unconfigured_danglingProject rfl unconcerned_danglingProject
    (fun c out hc ho => by cases hc; cases ho)
  rw [hran] at hrun
  obtain ⟨htwins, hfile⟩ := hw.put_free (l := []) rfl (by decide : IsName "x.sh".toList) rfl
    Config.template.toUTF8
  obtain ⟨cs, hscan, hne⟩ := exists_scan_current htwins.wellFormed' hfile
  have hafter := prepares_plainCheck hscan hne none
  have hstderr := congrArg RunResult.stderr (congrArg RunResult.withoutLog hrun)
  obtain ⟨p, hp⟩ | ⟨f, hstops⟩ :=
    prepares_or_stops idleHost (plainCheck "." none) { path := ".", noSyntax := true }
    danglingProject
  · exact not_prepares_danglingProject p hp
  · rw [run_of_stops rfl hstops, withoutLog_run, perform_check idleHost rfl,
      runOn_runCheck_of_prepares hafter]
      at hstderr
    exact Report.failure_ne_empty _ _ hstderr.symm

/-- A run that shows more than warnings says that it uses the configuration. -/
theorem init_noticed_log :
    ¬ InitUnnoticed fun host r t => NotDangling host t ∧ OutputPasses host r t := by
  intro h
  have hw : scriptProject.WellFormed := by decide
  let r : Request :=
    { verbose := 1, command := .check { path := "a.sh", output := some "report.txt" } }
  have hr : Unconcerned idleHost r scriptProject := unconcerned_scriptProject rfl rfl rfl rfl
  have hout : OutputPasses idleHost r scriptProject := outputPasses_scriptProject rfl rfl
  have hrun := h idleHost r { command := .init {} } scriptProject (overlook_idleHost _ _) hw rfl
    unconfigured_scriptProject rfl hr ⟨notDangling_scriptProject, hout⟩
  obtain ⟨-, rest, hlog, hlog'⟩ :=
    run_of_agreeAside (@agreeAside_after_init idleHost r { command := .init {} }
    scriptProject (overlook_idleHost _ _) hw rfl unconfigured_scriptProject
      notDangling_scriptProject rfl hr hout)
  obtain ⟨hnone, hused⟩ := @shownLog_configLog_scriptProject r rfl rfl rfl rfl
  rw [hnone] at hlog
  rw [hused, hrun, hlog] at hlog'
  simp at hlog'

end Noticed

end ScriptLint
