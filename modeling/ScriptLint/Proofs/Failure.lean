import ScriptLint.Command.Host
import ScriptLint.Program.Shell
import ScriptLint.Proofs.Action

/-!
Which step of a run fails with which failure. Main statements: `Config.validate_eq_ok_iff`, which
configurations can be used, and `Host.isCheckFailure_of_loadConfig`, one that cannot never counts as
a failed check.
-/

namespace ScriptLint

open ScriptLint.Action

/-- Steps one after the other fail where one of them does. -/
theorem bind_eq_error {ε α β : Type} {x : Except ε α} {next : α → Except ε β} {e : ε}
    (h : (x >>= next) = .error e) : x = .error e ∨ ∃ a, x = .ok a ∧ next a = .error e := by
  cases x with
  | error e' =>
    cases h
    exact .inl rfl
  | ok a => exact .inr ⟨a, rfl, h⟩

/-- Steps one after the other give a result where each of them does. -/
theorem bind_eq_ok_iff {ε α β : Type} {x : Except ε α} {next : α → Except ε β} {b : β} :
    (x >>= next) = .ok b ↔ ∃ a, x = .ok a ∧ next a = .ok b := by
  cases x with
  | error e =>
    constructor
    · intro h
      cases h
    · rintro ⟨_, h, _⟩
      cases h
  | ok a =>
    constructor
    · intro h
      exact ⟨a, rfl, h⟩
    · rintro ⟨_, ha, h⟩
      cases ha
      exact h

theorem map_eq_error {ε α β : Type} {x : Except ε α} {g : α → β} {e : ε}
    (h : x.map g = .error e) : x = .error e := by
  cases x with
  | error e' =>
    cases h
    rfl
  | ok a => cases h

namespace Config

theorem validateChecks_eq_ok_iff {disabled : List String} :
    validateChecks disabled = .ok () ↔ ∀ name ∈ disabled, (Check.named? name).isSome = true := by
  unfold validateChecks
  split
  · next name hfound =>
    refine iff_of_false nofun fun h => ?_
    have hnone := List.find?_some hfound
    rw [Option.isNone_iff_eq_none] at hnone
    have hsome := h name (List.mem_of_find?_eq_some hfound)
    rw [hnone] at hsome
    cases hsome
  · next hnone =>
    refine iff_of_true rfl fun name hname => ?_
    have hknown := List.find?_eq_none.mp hnone name hname
    rwa [Bool.not_eq_true, Option.isNone_eq_false_iff] at hknown

theorem validatePatterns_eq_ok_iff {patterns : List String} :
    validatePatterns patterns = .ok () ↔
      ∀ pattern ∈ patterns, ∃ glob, Glob.ofPattern pattern = .ok glob := by
  induction patterns with
  | nil => exact iff_of_true rfl nofun
  | cons pattern patterns ih =>
    rw [List.forall_mem_cons, ← ih]
    cases hglob : Glob.ofPattern pattern with
    | error e =>
      refine iff_of_false (fun h => ?_) nofun
      obtain ⟨_, hstep, -⟩ := bind_eq_ok_iff.mp h
      simp only [hglob] at hstep
      cases hstep
    | ok glob =>
      rw [and_iff_right ⟨glob, rfl⟩]
      constructor
      · intro h
        obtain ⟨_, -, hrest⟩ := bind_eq_ok_iff.mp h
        exact hrest
      · exact fun h => bind_eq_ok_iff.mpr ⟨(), by simp only [hglob], h⟩

theorem validatePalette_eq_ok_iff {palette : Palette} :
    validatePalette palette = .ok () ↔ ∀ color ∈ palette.entries, isBlankText color.2 = false := by
  unfold validatePalette
  split
  · next name code hfound =>
    refine iff_of_false nofun fun h => ?_
    have hblank := List.find?_some hfound
    rw [h _ (List.mem_of_find?_eq_some hfound)] at hblank
    cases hblank
  · next hnone =>
    refine iff_of_true rfl fun color hcolor => ?_
    exact Bool.eq_false_iff.mpr (List.find?_eq_none.mp hnone color hcolor)

theorem validateText_eq_ok_iff {key value : String} :
    validateText key value = .ok () ↔ isBlankText value = false := by
  unfold validateText
  cases isBlankText value with
  | true => exact iff_of_false nofun nofun
  | false => exact iff_of_true rfl rfl

/-- A configuration that a run can use: the checks that it disables exist, its patterns are well
formed, and neither the code of a color nor a text that has to be set is blank. -/
theorem validate_eq_ok_iff {config : Config} :
    config.validate = .ok () ↔
      (∀ name ∈ config.checks.disabled, (Check.named? name).isSome = true) ∧
      (∀ pattern ∈ config.scan.exclude, ∃ glob, Glob.ofPattern pattern = .ok glob) ∧
      (∀ color ∈ config.palette.entries, isBlankText color.2 = false) ∧
      isBlankText config.syntaxCheck.shell = false ∧ isBlankText config.style.envFile = false ∧
      isBlankText config.style.pythonMarker = false := by
  have hthen {x y : Except Failure Unit} : (x >>= fun _ => y) = .ok () ↔
      x = .ok () ∧ y = .ok () := by
    rw [bind_eq_ok_iff]
    exact ⟨fun ⟨_, h⟩ => h, fun h => ⟨(), h⟩⟩
  unfold validate
  simp only [hthen, validateChecks_eq_ok_iff, validatePatterns_eq_ok_iff, validatePalette_eq_ok_iff,
    validateText_eq_ok_iff]

/-- The configuration that counts without any file. -/
theorem validate_default : ({} : Config).validate = .ok () := by
  have htexts : isBlankText "bash" = false ∧ isBlankText defaultEnvFile = false ∧
      isBlankText defaultPythonMarker = false := by
    decide
  exact validate_eq_ok_iff.mpr ⟨nofun, nofun, nofun, htexts⟩

theorem parse_eq_ok {text : String} {c : Config} :
    parse text = .ok c ↔ ofText text = .ok c ∧ c.validate = .ok () := by
  unfold parse
  cases ofText text with
  | error e =>
    constructor
    · intro h
      cases h
    · rintro ⟨h, _⟩
      cases h
  | ok c' =>
    show (c'.validate >>= fun _ => pure c') = Except.ok c ↔ _
    rw [bind_eq_ok_iff]
    constructor
    · rintro ⟨_, hvalid, he⟩
      cases he
      exact ⟨rfl, hvalid⟩
    · rintro ⟨hc, hvalid⟩
      cases hc
      exact ⟨(), hvalid, rfl⟩

theorem isCheckFailure_of_validateChecks {disabled : List String} {f : Failure}
    (h : validateChecks disabled = .error f) : f.isCheckFailure = false := by
  unfold validateChecks at h
  split at h
  · cases h; rfl
  · cases h

theorem isCheckFailure_of_validatePatterns {patterns : List String} {f : Failure}
    (h : validatePatterns patterns = .error f) : f.isCheckFailure = false := by
  induction patterns with
  | nil => cases h
  | cons pattern rest ih =>
    rcases bind_eq_error h with hp | ⟨_, _, hr⟩
    · simp only at hp
      split at hp
      · cases hp
      · cases hp; rfl
    · exact ih hr

theorem isCheckFailure_of_validatePalette {palette : Palette} {f : Failure}
    (h : validatePalette palette = .error f) : f.isCheckFailure = false := by
  unfold validatePalette at h
  split at h
  · cases h; rfl
  · cases h

theorem isCheckFailure_of_validateText {key value : String} {f : Failure}
    (h : validateText key value = .error f) : f.isCheckFailure = false := by
  unfold validateText at h
  split at h
  · cases h; rfl
  · cases h

theorem isCheckFailure_of_validate {config : Config} {f : Failure}
    (h : config.validate = .error f) : f.isCheckFailure = false := by
  unfold validate at h
  rcases bind_eq_error h with h | ⟨_, _, h⟩
  · exact isCheckFailure_of_validateChecks h
  rcases bind_eq_error h with h | ⟨_, _, h⟩
  · exact isCheckFailure_of_validatePatterns h
  rcases bind_eq_error h with h | ⟨_, _, h⟩
  · exact isCheckFailure_of_validatePalette h
  rcases bind_eq_error h with h | ⟨_, _, h⟩
  · exact isCheckFailure_of_validateText h
  rcases bind_eq_error h with h | ⟨_, _, h⟩
  · exact isCheckFailure_of_validateText h
  · exact isCheckFailure_of_validateText h

theorem isCheckFailure_of_parse {text : String} {f : Failure} (h : parse text = .error f) :
    f.isCheckFailure = false := by
  unfold parse at h
  simp only at h
  split at h
  · rcases bind_eq_error h with h | ⟨config, _, h⟩
    · cases h
    rcases bind_eq_error h with h | ⟨_, _, h⟩
    · exact isCheckFailure_of_validate h
    · cases h
  · cases h; rfl

theorem isCheckFailure_of_loadFrom {files : ConfigFiles} {path : String} {f : Failure}
    (h : loadFrom files path = .error f) : f.isCheckFailure = false := by
  unfold loadFrom at h
  simp only at h
  split at h
  · rcases bind_eq_error h with h | ⟨text, _, h⟩
    · cases h
    rcases bind_eq_error h with h | ⟨_, _, h⟩
    · exact isCheckFailure_of_parse h
    · cases h
  · cases h; rfl

theorem isCheckFailure_of_load {files : ConfigFiles} {f : Failure} (h : load files = .error f) :
    f.isCheckFailure = false := by
  unfold load at h
  split at h
  · exact isCheckFailure_of_loadFrom h
  · cases h

end Config

/-- A configuration that cannot be used is no failed check. -/
theorem Host.isCheckFailure_of_loadConfig {host : Host} {t : FileTree} {r : Request} {f : Failure}
    (h : host.loadConfig t r = .error f) : f.isCheckFailure = false := by
  unfold loadConfig at h
  split at h
  · cases h
  · have hl := map_eq_error h
    unfold findConfig at hl
    split at hl
    · exact Config.isCheckFailure_of_loadFrom hl
    · exact Config.isCheckFailure_of_load hl

theorem buildFilter_error {types excludes : List String} {uncompilable : List Glob → Option String}
    {f : Failure} (h : buildFilter types excludes uncompilable = .error f) :
    ∃ e, f = .invalidPattern e := by
  unfold buildFilter at h
  split at h
  · cases h
  · next e _ => exact ⟨e, (Except.error.inj h).symm⟩

/-- Reading patterns fails unless all of them are well formed. -/
theorem mapM_ofPattern_ok_iff {patterns : List String} :
    (∃ globs, patterns.mapM Glob.ofPattern = .ok globs) ↔
      ∀ pattern ∈ patterns, ∃ glob, Glob.ofPattern pattern = .ok glob := by
  induction patterns with
  | nil => exact ⟨fun _ _ hp => (List.not_mem_nil hp).elim, fun _ => ⟨[], rfl⟩⟩
  | cons pattern rest ih =>
    rw [List.forall_mem_cons, ← ih, List.mapM_cons]
    cases hp : Glob.ofPattern pattern with
    | error e => simp [bind, Except.bind]
    | ok glob =>
      cases hr : rest.mapM Glob.ofPattern with
      | error e => simp [bind, Except.bind]
      | ok globs => simp [bind, Except.bind, pure, Except.pure]

/-- A filter can be built exactly if all of its patterns are well formed, and can be compiled
together. -/
theorem buildFilter_ok_iff {types excludes : List String}
    {uncompilable : List Glob → Option String} :
    (∃ filter, buildFilter types excludes uncompilable = .ok filter) ↔
      (∀ pattern ∈ excludes, ∃ glob, Glob.ofPattern pattern = .ok glob) ∧
        ∀ globs, excludes.mapM Glob.ofPattern = .ok globs → uncompilable globs = none := by
  have hbuild (filter : Filter) : buildFilter types excludes uncompilable = .ok filter ↔
      Filter.ofPatterns types excludes uncompilable = .ok filter := by
    unfold buildFilter
    cases Filter.ofPatterns types excludes uncompilable with
    | error e => exact iff_of_false nofun nofun
    | ok filter' => simp
  simp only [hbuild, Filter.ofPatterns_eq_ok_iff, ← mapM_ofPattern_ok_iff]
  constructor
  · rintro ⟨_, globs, hglobs, hnone, -⟩
    refine ⟨⟨globs, hglobs⟩, fun globs' h => ?_⟩
    cases hglobs.symm.trans h
    exact hnone
  · rintro ⟨⟨globs, hglobs⟩, hnone⟩
    exact ⟨_, globs, hglobs, hnone globs hglobs, rfl⟩

theorem scan_error {t : FileTree} {cwd : Location} {filter : Filter} {recursive : Bool}
    {path : String} {f : Failure} (h : scan t cwd filter recursive path = .error f) :
    f = .pathNotFound path ∨ f = .fileRead path .nameTooLong := by
  unfold scan at h
  split at h
  · exact .inl (Except.error.inj h).symm
  · split at h
    · exact .inr (Except.error.inj h).symm
    · split at h <;> cases h

namespace Action

variable {α β : Type}

/-- All failures of an action have a property. -/
def FailsOnly (P : Failure → Prop) (x : Action α) : Prop :=
  ∀ t f t', runOn x t = (.error f, t') → P f

variable {P Q : Failure → Prop}

theorem failsOnly_pure (a : α) : FailsOnly P (pure a) := by
  intro t f t' h
  cases h

theorem failsOnly_get : FailsOnly P get := by
  intro t f t' h
  cases h

theorem failsOnly_set (t : FileTree) : FailsOnly P (set t) := by
  intro t f t' h
  cases h

theorem failsOnly_throw {f : Failure} (hf : P f) : FailsOnly P (throw f : Action α) := by
  intro t f' t' h
  cases h
  exact hf

theorem FailsOnly.mono {x : Action α} (hx : FailsOnly P x) (h : ∀ f, P f → Q f) :
    FailsOnly Q x := by
  intro t f t' hf
  exact h f (hx t f t' hf)

theorem failsOnly_bind {x : Action α} {next : α → Action β} (hx : FailsOnly P x)
    (hn : ∀ a, FailsOnly P (next a)) : FailsOnly P (x >>= next) := by
  intro t f t' h
  rw [runOn_bind] at h
  rcases hr : runOn x t with ⟨f' | a, t₁⟩
  · rw [hr] at h
    cases h
    exact hx t _ _ hr
  · rw [hr] at h
    exact hn a t₁ f t' h

end Action

theorem writeText_failsOnly (cwd : Location) (path text : String) :
    FailsOnly (fun f => ∃ e, f = .io e) (do
      match (← get).write cwd path text.toUTF8 with
      | .ok t => set t
      | .error e => throw (.io e) : Action Unit) := by
  refine failsOnly_bind failsOnly_get fun t => ?_
  split
  · exact failsOnly_set _
  · exact failsOnly_throw ⟨_, rfl⟩

/-- A report that cannot be written is an error of the system. -/
theorem writeFile_failsOnly (cwd : Location) (path text : String) :
    FailsOnly (fun f => ∃ e, f = .io e) (writeFile cwd path text) := by
  have hw := writeText_failsOnly cwd path text
  unfold writeFile
  split
  · exact hw
  · exact hw
  · refine failsOnly_bind failsOnly_get fun t => ?_
    simp only
    refine failsOnly_bind (failsOnly_set _) fun _ => ?_
    split
    · exact hw
    · exact failsOnly_bind (failsOnly_throw ⟨_, rfl⟩) fun _ => hw

end ScriptLint
