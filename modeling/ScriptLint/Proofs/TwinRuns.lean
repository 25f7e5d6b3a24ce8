import ScriptLint.Command.Format
import ScriptLint.Proofs.CheckRun
import ScriptLint.Proofs.FormatRuns
import ScriptLint.Proofs.Template
import ScriptLint.Proofs.TwinScan

/-!
Runs in two trees of which the second one has one more file. Main statements: `runCheck_of_twins`
and `runFormat_of_twins`, a command ends in the same way in both trees, and with the same trace, if
it is not given the file, and if no more is excluded in the second tree than files that it does not
find in the first one.
-/

namespace ScriptLint

open ScriptLint.Action
open FileTree (Beside Twins SameShape)

/-! ## Filters with more patterns -/

namespace Config

/-- The configuration with more patterns. -/
def withPatterns (config : Config) (patterns : List String) : Config :=
  { config with scan := { config.scan with exclude := patterns ++ config.scan.exclude } }

end Config

/-- Patterns for all that is in directories of some names. -/
structure HidePatterns (patterns : List String) (hidden : List (List Char)) : Prop where
  globs : patterns.mapM Glob.ofPattern = .ok (hidden.map .allBelow)
  isName : ∀ name ∈ hidden, IsName name

theorem hides_append {hidden : List (List Char)} (hn : ∀ name ∈ hidden, IsName name)
    (filter : Filter) :
    filter.Hides hidden { filter with excludes := hidden.map .allBelow ++ filter.excludes } := by
  constructor
  · intro path hi
    simp only [Filter.includes, Filter.excludes?, List.any_append, Bool.not_or,
      Bool.and_eq_true] at hi ⊢
    exact ⟨hi.1, hi.2.2⟩
  · intro way hway hhidden hi
    have hkept : (hidden.map Glob.allBelow).any (·.isMatch way.toPath) = false := by
      refine List.any_eq_false.mpr fun glob hm hmatch => ?_
      obtain ⟨name, hname, rfl⟩ := List.mem_map.mp hm
      exact hhidden name hname (mem_dropLast_of_isMatch hway (hn name hname) hmatch)
    simp only [Filter.includes, Filter.excludes?, List.any_append, Bool.not_or,
      Bool.and_eq_true] at hi ⊢
    exact ⟨hi.1, by simp [hkept], hi.2⟩

/-- More patterns for directories of some names give a filter that hides these, or the same error,
if they make no difference to whether all patterns can be compiled together. -/
theorem buildFilter_cases {patterns : List String} {hidden : List (List Char)}
    (hp : HidePatterns patterns hidden)
    {uncompilable : List Glob → Option String} {types excludes : List String}
    (hu : ∀ globs, excludes.mapM Glob.ofPattern = .ok globs →
      uncompilable (hidden.map .allBelow ++ globs) = uncompilable globs) :
    (∃ f, buildFilter types excludes uncompilable = .error f ∧
      buildFilter types (patterns ++ excludes) uncompilable = .error f) ∨
    ∃ filter filter', buildFilter types excludes uncompilable = .ok filter ∧
      buildFilter types (patterns ++ excludes) uncompilable = .ok filter' ∧
        filter'.extensions = filter.extensions ∧
      filter.extensions = normalizeExtensions types ∧ filter.Hides hidden filter' := by
  unfold buildFilter Filter.ofPatterns
  rw [List.mapM_append, hp.globs]
  cases hg : excludes.mapM Glob.ofPattern with
  | error e => exact .inl ⟨_, rfl, rfl⟩
  | ok globs =>
    simp only [bind, Except.bind, pure, Except.pure, hu globs hg]
    cases uncompilable globs with
    | some reason => exact .inl ⟨_, rfl, rfl⟩
    | none => exact .inr ⟨_, _, rfl, rfl, rfl, rfl, hides_append hp.isName _⟩

/-! ## Courses in both trees -/

/-- Two courses end in the same way, with the same trace. -/
structure Agree {α : Type} (t t' : FileTree) (x x' : Course α) : Prop where
  answer : (x'.runOn t').1 = (x.runOn t).1
  events : x'.eventsOn t' = x.eventsOn t

namespace Agree

variable {α β : Type} {t t' : FileTree} {x x' : Course α} {next next' : α → Course β}

/-- What follows has to agree on what the first courses come to only. -/
theorem bind (hx : Agree t t' x x')
    (hn : ∀ a, (x.runOn t).1 = .ok a → Agree (x.runOn t).2 (x'.runOn t').2 (next a) (next' a)) :
    Agree t t' (x >>= next) (x' >>= next') := by
  obtain ⟨hanswer, hevents⟩ := hx
  rcases hr : x.runOn t with ⟨f | a, s⟩
  · rcases hr' : x'.runOn t' with ⟨result, s'⟩
    rw [hr, hr'] at hanswer
    obtain rfl : result = .error f := hanswer
    constructor
    · rw [Course.runOn_bind, Course.runOn_bind, hr, hr']
    · rw [Course.eventsOn_bind, Course.eventsOn_bind, hr, hr', hevents]
  · have hnext := hn a (by rw [hr])
    rcases hr' : x'.runOn t' with ⟨result, s'⟩
    rw [hr, hr'] at hanswer hnext
    obtain rfl : result = .ok a := hanswer
    constructor
    · rw [Course.runOn_bind, Course.runOn_bind, hr, hr']
      exact hnext.answer
    · rw [Course.eventsOn_bind, Course.eventsOn_bind, hr, hr', hevents]
      exact congrArg _ hnext.events

theorem pure (a : α) : Agree t t' (Pure.pure a) (Pure.pure a) :=
  ⟨rfl, rfl⟩

theorem traced {x : Traced α} (hx : (x.runOn t').1 = (x.runOn t).1)
    (he : x.eventsOn t' = x.eventsOn t) :
    Agree t t' (liftM x) (liftM x) := by
  constructor
  · rw [Course.runOn_traced, Course.runOn_traced, hx]
  · rw [Course.eventsOn_traced, Course.eventsOn_traced, he]

/-- The lines of the log do not depend on the files. -/
theorem say (entries : List LogEntry) :
    Agree t t' (liftM (Traced.say entries)) (liftM (Traced.say entries)) :=
  traced rfl rfl

end Agree

/-- What a request says about its configuration aside, two runs of it end in the same way, with the
same trace. -/
def AgreeAside (host : Host) (r : Request) (t t' : FileTree) (x : Course Outlet) : Prop :=
  (x.runOn t').1 = (x.runOn t).1 ∧ ∃ rest, x.eventsOn t = (host.configLog t r).map .logged ++ rest ∧
    x.eventsOn t' = (host.configLog t' r).map .logged ++ rest

theorem agreeAside_of_configure {host : Host} {r : Request} {t t' : FileTree}
    {config config' : Config}
    {next : Config → Course Outlet} (hconfig : host.loadConfig t r = .ok config)
    (hconfig' : host.loadConfig t' r = .ok config') (hn : Agree t t' (next config) (next config')) :
    AgreeAside host r t t' (host.configure r >>= next) := by
  refine ⟨?_, (next config).eventsOn t, ?_, ?_⟩
  · simp only [Course.runOn_bind, Course.runOn_configure, hconfig, hconfig']
    exact hn.answer
  · simp only [Course.eventsOn_bind, Course.eventsOn_configure, Course.runOn_configure, hconfig]
  · simp only [Course.eventsOn_bind, Course.eventsOn_configure, Course.runOn_configure, hconfig',
      hn.events]

/-! ## Steps in both trees -/

section Steps

variable {host : Host} {t t' : FileTree} {c cwd way k : Location}

/-- The candidates are files of the tree. -/
def AreFiles (t : FileTree) (cs : List Candidate) : Prop :=
  ∀ cand ∈ cs, ∃ way k, cand = .ofPath way.toPath ∧ t.FileAt way k

theorem AreFiles.locate_ne {cs : List Candidate} (hcs : AreFiles t cs) (h : Twins c t t')
    (cwd : Location) :
    ∀ path ∈ cs.map Candidate.path, t'.locate cwd path ≠ .ok c := by
  intro path hm
  obtain ⟨cand, hcand, rfl⟩ := List.mem_map.mp hm
  obtain ⟨way, k, rfl, hf⟩ := hcs cand hcand
  exact (h.locate_fileAt hf cwd).2.1

theorem FileTree.SameShape.fileAt {s : FileTree} (h : t.SameShape s) (hf : t.FileAt way k) :
    s.FileAt way k := by
  obtain ⟨bytes, mode, hg⟩ := hf.file
  exact ⟨hf.isName, (h.follow_eq _ _ _).trans hf.follow, h.grows.file hg⟩

/-- A worker comes to the same with a file of the first tree. -/
theorem inspect_passes_of_twins (ho : Overlook host.cwd c host.programs) (h : Twins c t t')
    (hf : t.FileAt way k) (config : Config) (shell : Option String) :
    (inspect host config shell (.ofPath way.toPath)).Passes .ofTwo (Onward c t t') fun _ =>
      True := by
  have hread (w : FileTree × FileTree) (hw : Onward c t t' w) :=
    hw.twins.read_fileAt (hw.shape.fileAt hf) host.cwd
  refine inspect_passes_any Onward.triple_say ?_ ?_ fun name _ => ?_
  · refine Onward.triple_look fun w hw => ?_
    simp only [Candidate.text, Candidate.ofPath, (hread w hw).1]
  · exact Onward.triple_look fun w hw => (hread w hw).2
  · refine (ho.validate name (List.mem_singleton_self way.toPath)).triple (fun path hm => ?_) _
    rw [List.mem_singleton.mp hm]
    exact (h.locate_fileAt hf host.cwd).2.1

/-- The workers come to the same results on candidates that are files of the first tree. -/
theorem inspectAll_of_twins (ho : Overlook host.cwd c host.programs) (h : Twins c t t')
    {cs : List Candidate}
    (hcs : AreFiles t cs) (config : Config) (shell : Option String) (jobs : Option Nat) :
    let x := inspectAll host config shell jobs cs
    (x.runOn t').1 = (x.runOn t).1 ∧ x.eventsOn t' = x.eventsOn t ∧
      Onward c t t' ((x.runOn t).2, (x.runOn t').2) := by
  have hpass : ∀ cand ∈ cs,
      (inspect host config shell cand).Passes .ofTwo (Onward c t t') fun _ => True := by
    intro cand hm
    obtain ⟨way, k, rfl, hf⟩ := hcs cand hm
    exact inspect_passes_of_twins ho h hf config shell
  obtain ⟨hanswer, hevents, -, honward⟩ :=
    Logic.ofTwo.work_passes hpass (jobs.getD host.workers) host.turns t t' (.refl h)
  exact ⟨hanswer, hevents, honward⟩

/-- The workers of a format run do the same with files of the first tree. -/
theorem formatPaths_of_twins (ho : Overlook host.cwd c host.programs) (h : Twins c t t')
    {cs : List Candidate} (hcs : AreFiles t cs) (formatter : FormatterProgram) (checkOnly : Bool) :
    let x := formatPaths host formatter checkOnly (cs.map (·.path))
    (x.runOn t').1 = (x.runOn t).1 ∧ x.eventsOn t' = x.eventsOn t := by
  have hlocate := hcs.locate_ne h host.cwd
  have hpass : ∀ path ∈ cs.map (·.path),
      (formatter.format host.programs checkOnly path).Passes .ofTwo
      (Onward c t t') fun _ => True := fun path hm =>
    formatter.format_passes Onward.triple_say ((ho.needsFormat formatter hm).triple hlocate _)
      ((ho.write formatter hm).triple hlocate _)
  obtain ⟨hanswer, hevents, -, -⟩ :=
    Logic.ofTwo.work_passes hpass host.workers host.turns t t' (.refl h)
  unfold formatPaths
  constructor
  · rw [Traced.runOn_bind, Traced.runOn_bind, hanswer]
    rfl
  · rw [Traced.eventsOn_bind, Traced.eventsOn_bind, hevents]
    rfl

/-- The shell is ready in both trees or in neither. -/
theorem readyShell_of_twins (ho : Overlook host.cwd c host.programs) (h : Twins c t t')
    (shell : Option String) :
    Agree t t' (readyShell host.programs shell) (readyShell host.programs shell) ∧
      Ran c t t' ((tryShell host.programs shell).runOn t)
        ((tryShell host.programs shell).runOn t') := by
  have hran : Ran c t t' ((tryShell host.programs shell).runOn t)
      ((tryShell host.programs shell).runOn t') :=
    ho.tryShell shell t t' h fun _ hm => absurd hm List.not_mem_nil
  refine ⟨?_, hran⟩
  unfold readyShell
  refine Agree.bind (.traced rfl rfl) fun _ _ => ?_
  refine Agree.bind ⟨?_, rfl⟩ fun _ _ => .say _
  exact hran.answer

theorem runOn_readyFormatter (programs : Programs) (formatter : FormatterProgram) (t : FileTree) :
    (readyFormatter programs formatter).runOn t =
      match (formatter.version programs).runOn t with
      | (.ok _, t') => (.ok (), t')
      | (.error f, t') => (.error f, t') := by
  simp only [readyFormatter, Course.runOn_bind, Course.runOn_traced, Course.runOn_action,
    Traced.runOn_tell, Traced.runOn_say]
  rcases (formatter.version programs).runOn t with ⟨f | version, t'⟩
  · rfl
  · rfl

/-- The formatter is ready in both trees or in neither. -/
theorem readyFormatter_of_twins (ho : Overlook host.cwd c host.programs) (h : Twins c t t')
    (formatter : FormatterProgram) :
    Agree t t' (readyFormatter host.programs formatter) (readyFormatter host.programs formatter) ∧
      Ran c t t' ((formatter.version host.programs).runOn t)
        ((formatter.version host.programs).runOn t') := by
  have hran : Ran c t t' ((formatter.version host.programs).runOn t)
      ((formatter.version host.programs).runOn t') :=
    ho.formatterVersion formatter t t' h fun _ hm => absurd hm List.not_mem_nil
  refine ⟨?_, hran⟩
  unfold readyFormatter
  refine Agree.bind (.traced rfl rfl) fun _ _ => ?_
  refine Agree.bind ⟨?_, rfl⟩ fun version _ => .say _
  exact hran.answer

end Steps

/-! ## Commands in both trees -/

section Commands

variable {host : Host} {r : Request} {c : CheckRequest} {f : FmtRequest} {t t' : FileTree}
  {place : Location}
  {config : Config} {filter filter' : Filter} {patterns : List String} {hidden : List (List Char)}
    {path : String}
  {recursive : Bool}

theorem CheckRequest.filter_withPatterns (c : CheckRequest) (host : Host) (config : Config)
    (patterns : List String) :
    c.filter host (config.withPatterns patterns) =
      buildFilter (c.types.getD config.scan.extensions)
        (patterns ++ (config.scan.exclude ++ c.exclude))
        host.uncompilable := by
  simp only [filter, Config.withPatterns, List.append_assoc]

theorem FmtRequest.filter_withPatterns (f : FmtRequest) (host : Host) (config : Config)
    (patterns : List String) :
    f.filter host (config.withPatterns patterns) =
      buildFilter (f.types.getD config.format.extensions)
        (patterns ++ (config.scan.exclude ++ f.exclude))
        host.uncompilable := by
  simp only [filter, Config.withPatterns, List.append_assoc]

theorem chosenShell?_withPatterns (config : Config) (patterns : List String) (c : CheckRequest)
    (he : filter'.extensions = filter.extensions) :
    chosenShell? (config.withPatterns patterns) c filter' = chosenShell? config c filter := by
  rw [chosenShell?, chosenShell?, maySeeShell, maySeeShell, he]
  rfl

/-- After a step that has come to the same in both trees, a scan finds the same in both. -/
theorem scan_eq_of_ran (h : Twins place t t') (hno : t.NoLinkTo place)
    (hd : t.get? host.cwd = some .directory)
    {α : Type} {ran ran' : α × FileTree} (hran : Ran place t t' ran ran')
    (hpath : t.spot host.cwd path ≠ .ok (.free place))
    (hext : ∀ extension ∈ filter.extensions, Path.extension? place.toPath ≠ some extension)
    (hf : filter.Hides hidden filter')
    (hhidden : ∀ cs, scan ran.2 host.cwd filter recursive path = .ok cs →
      ∀ cand ∈ cs, ∀ name ∈ hidden, name ∉ namesAbove cand.path) :
    scan ran'.2 host.cwd filter' recursive path = scan ran.2 host.cwd filter recursive path := by
  refine (h.next hran).scan_eq (hran.shape.noLinkTo hno) hext hf
    (hran.shape.grows.directory hd) ?_ hhidden
  rw [hran.shape.spot_eq]
  exact hpath

/-- If both scans find the same, so do both searches, and they say the same. -/
theorem search_of_twins (h : Twins place t t') (hd : t.get? host.cwd = some .directory)
    (hpath : t.spot host.cwd path ≠ .ok (.free place)) (he : filter'.extensions = filter.extensions)
    (hscan : scan t' host.cwd filter' recursive path = scan t host.cwd filter recursive path) :
    Agree t t' (host.search filter recursive path) (host.search filter' recursive path) := by
  have hlog : scanLog t' host.cwd filter' recursive path =
      scanLog t host.cwd filter recursive path := by
    unfold scanLog FileTree.isDirectory FileTree.entryAt?
    rw [hscan]
    rcases h.locate_cases hd hpath with ⟨k, hk, hk'⟩ | ⟨e, e', hl, hl'⟩
    · have hkc : k ≠ place := by
        rintro rfl
        have hentry := FileTree.get?_of_locate h.wellFormed hd hk
        simp [h.beside.free] at hentry
      simp only [hk, hk', h.beside.others k hkc]
    · simp only [hl, hl']
  constructor
  · rw [Course.runOn_search, Course.runOn_search, findCandidates, findCandidates, hscan, he]
  · simp only [Host.search, Course.eventsOn_bind, Course.runOn_get, Course.runOn_traced,
      Course.eventsOn_traced, Course.eventsOn_action, Traced.runOn_say, Traced.eventsOn_say, hlog]
    rfl

/-- A report ends in the same way in both trees, if the path of its file passes by the file. -/
theorem conclude_eq_of_twins (h : Twins place t t') (hd : t.get? host.cwd = some .directory)
    (results : List FileResult) (hout : ∀ out, c.output = some out →
      ((c.conclude host r results).runOn t).2.PassesBy place host.cwd out) :
    ((c.conclude host r results).runOn t').1 = ((c.conclude host r results).runOn t).1 := by
  unfold CheckRequest.conclude at hout ⊢
  simp only at hout ⊢
  cases ho : c.output with
  | none => rfl
  | some out =>
    have hpasses := hout out ho
    simp only [ho, runOn_bind] at hpasses ⊢
    generalize Report.render c.format (host.reportStyle r) results (Summary.ofResults results) =
      report at hpasses ⊢
    have hwrite : ((writeFile host.cwd out report).runOn t).2.PassesBy place host.cwd out →
        ((writeFile host.cwd out report).runOn t').1 =
          ((writeFile host.cwd out report).runOn t).1 :=
      h.beside.runOn_writeFile h.wellFormed hd report
    rcases hw : (writeFile host.cwd out report).runOn t with ⟨e | _, s⟩
    · rw [hw] at hpasses hwrite
      rcases hw' : (writeFile host.cwd out report).runOn t' with ⟨result', s'⟩
      rw [hw'] at hwrite
      obtain rfl : result' = .error e := hwrite hpasses
      rfl
    · rw [hw] at hpasses hwrite
      rcases hw' : (writeFile host.cwd out report).runOn t' with ⟨result', s'⟩
      rw [hw'] at hwrite
      obtain rfl : result' = .ok () := hwrite hpasses
      rfl

theorem scan_of_findCandidates {cwd : Location} {cs : List Candidate}
    (h : findCandidates t cwd filter recursive path = .ok cs) :
    scan t cwd filter recursive path = .ok cs ∧ cs ≠ [] := by
  obtain ⟨found, hscan, hok⟩ := bind_eq_ok_iff.mp h
  split at hok
  · cases hok
  · next hne =>
    cases hok
    exact ⟨hscan, by simpa using hne⟩

/-- From the search on, a check goes on in the same way in both trees. -/
theorem CheckRequest.proceed_of_twins (ho : Overlook host.cwd place host.programs)
    (h : Twins place t t')
    (hd : t.get? host.cwd = some .directory) (hpath : t.spot host.cwd c.path ≠ .ok (.free place))
    (he : filter'.extensions = filter.extensions) {shell : Option String}
    (hscan : c.scan host t' (config.withPatterns patterns) filter' = c.scan host t config filter)
    (hout : ∀ out, c.output = some out →
      ((c.proceed host r config filter shell).runOn t).2.PassesBy place host.cwd out) :
    Agree t t' (c.proceed host r config filter shell)
      (c.proceed host r (config.withPatterns patterns) filter' shell) := by
  unfold proceed at hout ⊢
  have hsearch : Agree t t' (host.search filter (c.recursive || config.scan.recursive) c.path)
      (host.search filter' (c.recursive || config.scan.recursive) c.path) :=
        search_of_twins h hd hpath he hscan
  refine hsearch.bind fun cs hcs => ?_
  simp only [Course.runOn_bind, Course.runOn_search] at hout hcs ⊢
  rw [hcs] at hout
  simp only [Course.runOn_traced, Course.runOn_action, Traced.runOn_say] at hout
  have hfiles : AreFiles t cs := fun cand hm =>
    exists_fileAt_of_mem_scan h.wellFormed hd (scan_of_findCandidates hcs).1 hm
  obtain ⟨hresults, hevents, honward⟩ := inspectAll_of_twins ho h hfiles config shell c.jobs
  refine Agree.bind (.say _) fun _ _ => ?_
  refine Agree.bind (.traced hresults hevents) fun results hr => ?_
  obtain rfl : ((inspectAll host config shell c.jobs cs).runOn t).1 = results := Except.ok.inj hr
  refine Agree.bind (.say _) fun _ _ => ⟨?_, rfl⟩
  exact conclude_eq_of_twins honward.twins (honward.shape.grows.directory hd) _ hout

/-- A check ends in the same way in both trees. -/
theorem runCheck_of_twins (ho : Overlook host.cwd place host.programs) (h : Twins place t t')
    (hno : t.NoLinkTo place) (hd : t.get? host.cwd = some .directory)
    (hp : HidePatterns patterns hidden) (hconfig : host.loadConfig t r = .ok config)
    (hconfig' : host.loadConfig t' r = .ok (config.withPatterns patterns))
    (hcompiles : ∀ globs, (config.scan.exclude ++ c.exclude).mapM Glob.ofPattern = .ok globs →
      host.uncompilable (hidden.map .allBelow ++ globs) = host.uncompilable globs)
    (hpath : t.spot host.cwd c.path ≠ .ok (.free place))
    (hext : ∀ extension ∈ normalizeExtensions (c.types.getD config.scan.extensions),
      Path.extension? place.toPath ≠ some extension)
    (hhidden : ∀ p, Prepares host r c t p →
      ∀ cand ∈ p.candidates, ∀ name ∈ hidden, name ∉ namesAbove cand.path)
    (hout : ∀ out, c.output = some out →
      ((runCheck host r c).runOn t).2.PassesBy place host.cwd out) :
    AgreeAside host r t t' (runCheck host r c) := by
  refine agreeAside_of_configure hconfig hconfig' ?_
  rcases buildFilter_cases hp hcompiles with
    ⟨e, hfilter, hfilter'⟩ | ⟨filter, filter', hfilter, hfilter', hsame, hexts, hhides⟩
  · rw [← c.filter_withPatterns] at hfilter'
    rw [hfilter', CheckRequest.filter, hfilter]
    exact ⟨rfl, rfl⟩
  rw [← c.filter_withPatterns] at hfilter'
  have hfilter : c.filter host config = .ok filter := hfilter
  have hshell := chosenShell?_withPatterns config patterns c hsame
  obtain ⟨hready, hran⟩ := readyShell_of_twins ho h (chosenShell? config c filter)
  rw [hfilter, hfilter']
  show Agree t t' (readyShell host.programs (chosenShell? config c filter) >>= fun _ =>
      c.proceed host r config filter (chosenShell? config c filter))
    (readyShell host.programs (chosenShell? (config.withPatterns patterns) c filter') >>= fun _ =>
      c.proceed host r (config.withPatterns patterns) filter'
        (chosenShell? (config.withPatterns patterns) c filter'))
  rw [hshell]
  refine hready.bind fun _ hstarted => ?_
  rw [Course.runOn_readyShell] at hstarted
  rw [Course.runOn_readyShell, Course.runOn_readyShell]
  rcases hs : (tryShell host.programs (chosenShell? config c filter)).runOn t with ⟨result, s⟩
  rw [hs] at hstarted hran
  obtain rfl : result = .ok _ := hstarted
  generalize ((tryShell host.programs (chosenShell? config c filter)).runOn t') = ran' at hran
  have hspot : s.spot host.cwd c.path ≠ .ok (.free place) := by
    rw [hran.shape.spot_eq]
    exact hpath
  refine c.proceed_of_twins ho (h.next hran) (hran.shape.grows.directory hd) hspot hsame ?_ ?_
  · refine scan_eq_of_ran h hno hd hran hpath (hexts ▸ hext) hhides fun cs hcs cand hm => ?_
    exact hhidden ⟨config, filter, s, cs⟩ ⟨hconfig, hfilter, hs, hcs, List.ne_nil_of_mem hm⟩ cand hm
  · rwa [runOn_runCheck_of_ready hconfig hfilter hs] at hout

/-- The candidates that a format run comes to: its configuration, its formatter and its filter are
settled then. -/
inductive FmtRequest.Finds (host : Host) (r : Request) (f : FmtRequest) (t : FileTree) :
    List Candidate → Prop
  | mk {config : Config} {version : String} {filter : Filter} {s : FileTree} {cs : List Candidate}
      (loaded : host.loadConfig t r = .ok config)
      (started : ((chosenFormatter config f).version host.programs).runOn t = (.ok version, s))
      (filtered : f.filter host config = .ok filter)
      (found : ScriptLint.scan s host.cwd filter (f.recursive || config.scan.recursive) f.path =
        .ok cs) :
      Finds host r f t cs

/-- From the search on, a format run goes on in the same way in both trees. -/
theorem FmtRequest.proceed_of_twins (ho : Overlook host.cwd place host.programs)
    (h : Twins place t t')
    (hd : t.get? host.cwd = some .directory) (hpath : t.spot host.cwd f.path ≠ .ok (.free place))
    (he : filter'.extensions = filter.extensions)
    (hscan : scan t' host.cwd filter' (f.recursive || config.scan.recursive) f.path =
      scan t host.cwd filter (f.recursive || config.scan.recursive) f.path) :
    Agree t t' (f.proceed host r config filter)
      (f.proceed host r (config.withPatterns patterns) filter') := by
  unfold proceed
  have hsearch : Agree t t' (host.search filter (f.recursive || config.scan.recursive) f.path)
      (host.search filter' (f.recursive || config.scan.recursive) f.path) :=
        search_of_twins h hd hpath he hscan
  refine hsearch.bind fun cs hcs => ?_
  rw [Course.runOn_search] at hcs
  have hfiles : AreFiles t cs := fun cand hm =>
    exists_fileAt_of_mem_scan h.wellFormed hd (scan_of_findCandidates hcs).1 hm
  obtain ⟨houtcomes, hevents⟩ :=
    formatPaths_of_twins ho h hfiles (chosenFormatter config f) f.checkOnly
  exact Agree.bind (.traced houtcomes hevents) fun outcomes _ => .pure _

/-- A format run ends in the same way in both trees. -/
theorem runFormat_of_twins (ho : Overlook host.cwd place host.programs) (h : Twins place t t')
    (hno : t.NoLinkTo place) (hd : t.get? host.cwd = some .directory)
    (hp : HidePatterns patterns hidden) (hconfig : host.loadConfig t r = .ok config)
    (hconfig' : host.loadConfig t' r = .ok (config.withPatterns patterns))
    (hcompiles : ∀ globs, (config.scan.exclude ++ f.exclude).mapM Glob.ofPattern = .ok globs →
      host.uncompilable (hidden.map .allBelow ++ globs) = host.uncompilable globs)
    (hpath : t.spot host.cwd f.path ≠ .ok (.free place))
    (hext : ∀ extension ∈ normalizeExtensions (f.types.getD config.format.extensions),
      Path.extension? place.toPath ≠ some extension)
    (hhidden : ∀ cs, f.Finds host r t cs →
      ∀ cand ∈ cs, ∀ name ∈ hidden, name ∉ namesAbove cand.path) :
    AgreeAside host r t t' (runFormat host r f) := by
  refine agreeAside_of_configure hconfig hconfig' ?_
  obtain ⟨hready, hran⟩ := readyFormatter_of_twins ho h (chosenFormatter config f)
  refine hready.bind fun version hstarted => ?_
  rw [runOn_readyFormatter] at hstarted
  rw [runOn_readyFormatter, runOn_readyFormatter]
  rcases hs : ((chosenFormatter config f).version host.programs).runOn t with ⟨result, s⟩
  rcases hs' : ((chosenFormatter config f).version host.programs).runOn t' with ⟨result', s'⟩
  rw [hs] at hstarted
  rw [hs, hs'] at hran
  obtain rfl : result' = result := hran.answer
  cases result' with
  | error e => cases hstarted
  | ok version =>
  rcases buildFilter_cases hp hcompiles with
    ⟨e, hfilter, hfilter'⟩ | ⟨filter, filter', hfilter, hfilter', hsame, hexts, hhides⟩
  · rw [← f.filter_withPatterns] at hfilter'
    rw [hfilter', FmtRequest.filter, hfilter]
    exact ⟨rfl, rfl⟩
  rw [← f.filter_withPatterns] at hfilter'
  have hfilter : f.filter host config = .ok filter := hfilter
  rw [hfilter, hfilter']
  show Agree s s' (f.proceed host r config filter)
    (f.proceed host r (config.withPatterns patterns) filter')
  have hspot : s.spot host.cwd f.path ≠ .ok (.free place) := by
    rw [hran.shape.spot_eq]
    exact hpath
  refine f.proceed_of_twins ho (h.next hran) (hran.shape.grows.directory hd) hspot hsame ?_
  refine scan_eq_of_ran h hno hd hran hpath (hexts ▸ hext) hhides fun cs hcs => ?_
  exact hhidden cs ⟨hconfig, hs, hfilter, hcs⟩

end Commands

end ScriptLint
