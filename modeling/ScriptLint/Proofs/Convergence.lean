import Mathlib.Logic.Function.Basic
import ScriptLint.Proofs.Formatting

/-!
Formatting again. The formatter judges a file by what is in it, and writes what needs no more
formatting; paths may name the same file, so that a write changes what is judged at another path.
Main statement: `formatting_converges`, what a run that writes means for the runs after it.
-/

namespace ScriptLint.Formatter

variable {κ γ : Type} [DecidableEq κ]

/-- A content that needs no formatting, by whatever path its file is named. -/
def Tidy (file : String → κ) (needs : String → γ → Except IoError Bool) (k : κ)
    (content : γ) : Prop :=
  ∀ path, file path = k → needs path content = .ok false

/-- A formatter on the contents of files, of which each path names one. -/
structure Settles (f : Formatter (κ → γ)) (file : String → κ)
    (needs : String → γ → Except IoError Bool) :
    Prop where
  /-- The answer depends on the content alone. -/
  judges : ∀ path s, (f.needsFormat path).run s = (needs path (s (file path)), s)
  /-- A write fails and changes nothing, or leaves what needs no formatting. -/
  writes : ∀ path s, (∃ e, (f.write path).run s = (.error e, s)) ∨
    ∃ content, Tidy file needs (file path) content ∧
      (f.write path).run s = (.ok (), Function.update s (file path) content)

/-- The file that a path names needs no formatting. -/
def Clean (file : String → κ) (needs : String → γ → Except IoError Bool) (s : κ → γ)
    (path : String) : Prop :=
  needs path (s (file path)) = .ok false

/-- What a run comes to after one that wrote. -/
structure Converges (first : List (String × Outcome)) (s : κ → γ) (checkOnly : Bool)
    (second : List (String × Outcome)) (s' : κ → γ) : Prop where
  inOrder : second.map (·.1) = first.map (·.1)
  /-- What has not failed is found unchanged. -/
  unchanged : ∀ o ∈ first, (∀ reason, o.2 ≠ .failed reason) → ∀ o' ∈ second, o'.1 = o.1 →
    o'.2 = .unchanged
  /-- Files that are only checked stay as they are. -/
  checks : checkOnly = true → s' = s
  /-- After a success there is nothing to do. -/
  succeeds : Outcome.exitCode false first = .success →
    Outcome.exitCode checkOnly second = .success ∧ s' = s

variable {f : Formatter (κ → γ)} {file : String → κ} {needs : String → γ → Except IoError Bool}
  {checkOnly : Bool} {path : String} {paths : List String} {s s' : κ → γ} {call : Call}
    {calls : List Call}
  {task task' : Task} {tasks tasks₀ : List Task} {outcomes : List (String × Outcome)}

namespace Settles

variable (hf : f.Settles file needs)
include hf

/-! ## Steps -/

theorem eq_of_needsFormat {answer : Except IoError Bool}
    (h : (f.needsFormat path).run s = (answer, s')) :
    s' = s ∧ needs path (s (file path)) = answer := by
  obtain ⟨hanswer, hstore⟩ := Prod.mk.inj ((hf.judges path s).symm.trans h)
  exact ⟨hstore.symm, hanswer⟩

theorem tidy_of_write (h : (f.write path).run s = (.ok (), s')) :
    ∃ content, Tidy file needs (file path) content ∧
      s' = Function.update s (file path) content := by
  rcases hf.writes path s with ⟨e, he⟩ | ⟨content, htidy, hc⟩
  · cases (Prod.mk.inj (he.symm.trans h)).1
  · exact ⟨content, htidy, (Prod.mk.inj (hc.symm.trans h)).2.symm⟩

theorem eq_of_write_error {e : IoError} (h : (f.write path).run s = (.error e, s')) : s' = s := by
  rcases hf.writes path s with ⟨e', he⟩ | ⟨content, -, hc⟩
  · exact (Prod.mk.inj (he.symm.trans h)).2.symm
  · cases (Prod.mk.inj (hc.symm.trans h)).1

/-- The step lemma: what needs no formatting stays so, also where its file is written by another
path. -/
theorem clean_works (hw : f.Works checkOnly task s call task' s') (hc : Clean file needs s path) :
    Clean file needs s' path := by
  cases hw with
  | clean h | differs h | begins h | rejected h =>
    rw [(hf.eq_of_needsFormat h).1]
    exact hc
  | @written written _ _ h =>
    obtain ⟨content, htidy, rfl⟩ := hf.tidy_of_write h
    by_cases hfile : file path = file written
    · have hclean := htidy path hfile
      rw [Clean, hfile, Function.update_self]
      exact hclean
    · rw [Clean, Function.update_of_ne hfile]
      exact hc
  | stuck h =>
    rw [hf.eq_of_write_error h]
    exact hc

/-- Only a worker that is going to write changes the files. -/
theorem eq_of_works (hw : f.Works checkOnly task s call task' s') (hp : task.pending = []) :
    s' = s := by
  cases hw with
  | clean h | differs h | begins h | rejected h => exact (hf.eq_of_needsFormat h).1
  | written h | stuck h => cases hp

/-- What has become unchanged or formatted needs no formatting. -/
theorem clean_of_works {o : Outcome} (hw : f.Works checkOnly task s call (.done path o) s')
    (ho : o = .unchanged ∨ o = .formatted) : Clean file needs s' path := by
  cases hw with
  | clean h =>
    obtain ⟨rfl, hclean⟩ := hf.eq_of_needsFormat h
    exact hclean
  | differs h | rejected h | stuck h => simp at ho
  | written h =>
    obtain ⟨content, htidy, rfl⟩ := hf.tidy_of_write h
    rw [Clean, Function.update_self]
    exact htidy path rfl

/-- Asked about what needs no formatting, the formatter says so. -/
theorem works_of_clean (hw : f.Works checkOnly (.asking path) s call task' s')
    (hc : Clean file needs s path) :
    task' = .done path .unchanged := by
  cases hw with
  | clean h => rfl
  | differs h | begins h | rejected h =>
    have hanswer := (hf.eq_of_needsFormat h).2
    cases hanswer.symm.trans hc

/-! ## Runs -/

/-- The run lemma: what needs no formatting stays so. -/
theorem clean_runs (h : f.Runs checkOnly tasks₀ s calls tasks s') (hc : Clean file needs s path) :
    Clean file needs s' path :=
  h.keeps hf.clean_works hc

/-- What a run leaves as unchanged or formatted needs no formatting. -/
theorem clean_of_runs (h : f.Runs checkOnly (paths.map .asking) s calls tasks s') :
    ∀ path o, .done path o ∈ tasks → o = .unchanged ∨ o = .formatted →
      Clean file needs s' path := by
  induction h with
  | start =>
    intro path o hm
    simp at hm
  | next before after _ hw ih =>
    intro path o hm ho
    rcases List.mem_append.mp hm with hb | ha
    · exact hf.clean_works hw (ih path o (List.mem_append_left _ hb) ho)
    rcases List.mem_cons.mp ha with rfl | ha
    · exact hf.clean_of_works hw ho
    · exact hf.clean_works hw (ih path o (List.mem_append_right _ (List.mem_cons_of_mem _ ha)) ho)

/-- A file that needs no formatting is found unchanged. -/
theorem unchanged_of_runs (h : f.Runs checkOnly (paths.map .asking) s calls tasks s') :
    ∀ task ∈ tasks, Clean file needs s task.path →
      task = .asking task.path ∨ task = .done task.path .unchanged := by
  induction h with
  | start =>
    intro task hm _
    obtain ⟨path, _, rfl⟩ := List.mem_map.mp hm
    exact .inl rfl
  | @next before after _ worked task' _ _ _ hr hw ih =>
    intro task hm hc
    rcases List.mem_append.mp hm with hb | ha
    · exact ih task (List.mem_append_left _ hb) hc
    rcases List.mem_cons.mp ha with rfl | ha
    · rw [hw.path_eq] at hc ⊢
      rcases ih worked (List.mem_append_right _ List.mem_cons_self) hc with hasking | hdone
      · rw [hasking] at hw
        exact .inr (hf.works_of_clean hw (hf.clean_runs hr hc))
      · rw [hdone] at hw
        cases hw
    · exact ih task (List.mem_append_right _ (List.mem_cons_of_mem _ ha)) hc

/-- A run in which no worker is ever going to write leaves the files as they are. -/
theorem eq_of_runs (h : f.Runs checkOnly tasks₀ s calls tasks s')
    (hp : ∀ calls tasks s', f.Runs checkOnly tasks₀ s calls tasks s' →
      tasks.flatMap Task.pending = []) :
    s' = s := by
  induction h with
  | start => rfl
  | next before after hr hw ih =>
    have hpending := hp _ _ _ hr
    simp only [List.flatMap_append, List.flatMap_cons, List.append_eq_nil_iff] at hpending
    exact (hf.eq_of_works hw hpending.2.1).trans ih

/-- Where files are only checked, they stay as they are. -/
theorem eq_of_formats_checkOnly (h : f.Formats true paths s calls outcomes s') : s' = s :=
  hf.eq_of_runs h fun _ _ _ hr => (Runs.accounts hr).unwritten rfl |>.2

/-- Where no file needs formatting, they stay as they are. -/
theorem eq_of_formats_clean (h : f.Formats checkOnly paths s calls outcomes s')
    (hc : ∀ path ∈ paths, Clean file needs s path) : s' = s := by
  refine hf.eq_of_runs h fun calls tasks s' hr => List.flatMap_eq_nil_iff.mpr fun task hm => ?_
  have hpath : task.path ∈ paths := by
    rw [← (Runs.accounts hr).paths]
    exact List.mem_map_of_mem hm
  rcases hf.unchanged_of_runs hr task hm (hc _ hpath) with htask | htask <;> rw [htask] <;> rfl

theorem outcome_eq_unchanged (h : f.Formats checkOnly paths s calls outcomes s')
    {o : String × Outcome}
    (hm : o ∈ outcomes) (hc : Clean file needs s o.1) : o.2 = .unchanged := by
  have htask : Task.ofOutcome o ∈ outcomes.map Task.ofOutcome := List.mem_map_of_mem hm
  rcases hf.unchanged_of_runs h _ htask hc with hasking | hdone
  · cases hasking
  · exact (Task.done.inj hdone).2

/-! ## Runs after a run -/

/-- What has not failed in a run that writes needs no formatting any more. -/
theorem clean_of_formats (h : f.Formats false paths s calls outcomes s') {o : String × Outcome}
    (hm : o ∈ outcomes) (ho : ∀ reason, o.2 ≠ .failed reason) : Clean file needs s' o.1 := by
  have hfit := h.finished.fitsMode o hm
  refine hf.clean_of_runs h o.1 o.2 (List.mem_map_of_mem hm) ?_
  cases hkind : o.2 with
  | unchanged => exact .inl rfl
  | formatted => exact .inr rfl
  | needsFormat =>
    rw [hkind] at hfit
    cases hfit
  | failed reason => exact absurd hkind (ho reason)

theorem converges {calls' : List Call} {outcomes' : List (String × Outcome)} {s'' : κ → γ}
    (h : f.Formats false paths s calls outcomes s')
    (h' : f.Formats checkOnly paths s' calls' outcomes' s'') :
    Converges outcomes s' checkOnly outcomes' s'' := by
  have hpaths := h.finished.inOrder
  have hpaths' := h'.finished.inOrder
  refine ⟨hpaths'.trans hpaths.symm, ?_, ?_, fun hsuccess => ?_⟩
  · intro o hm ho o' hm' hpath
    refine hf.outcome_eq_unchanged h' hm' ?_
    rw [hpath]
    exact hf.clean_of_formats h hm ho
  · rintro rfl
    exact hf.eq_of_formats_checkOnly h'
  · have hnone : ∀ o ∈ outcomes, ∀ reason, o.2 ≠ .failed reason := by
      intro o hm reason ho
      rcases (exitCode_eq_success_iff h.finished.fitsMode).mp hsuccess with hall | ⟨-, hall⟩
      · cases (hall o hm).symm.trans ho
      · exact hall o hm reason ho
    have hclean : ∀ path ∈ paths, Clean file needs s' path := by
      intro path hm
      rw [← hpaths] at hm
      obtain ⟨o, ho, rfl⟩ := List.mem_map.mp hm
      exact hf.clean_of_formats h ho (hnone o ho)
    refine ⟨(exitCode_eq_success_iff h'.finished.fitsMode).mpr (.inl fun o' hm' => ?_),
      hf.eq_of_formats_clean h' hclean⟩
    refine hf.outcome_eq_unchanged h' hm' (hclean _ ?_)
    rw [← hpaths']
    exact List.mem_map_of_mem hm'

end Settles

/-- Formatting converges: after a run that writes, whatever has not failed is found unchanged, and
after a success there is nothing to do. This holds where each run takes file after file, and for any
order of the calls. -/
theorem formatting_converges (hf : f.Settles file needs) (paths : List String) (s : κ → γ) :
    (∀ checkOnly : Bool,
      let first := (f.formatAll false paths).run s
      let second := (f.formatAll checkOnly paths).run first.2
      Converges first.1 first.2 checkOnly second.1 second.2) ∧
    ∀ (checkOnly : Bool) (calls calls' : List Call) (outcomes outcomes' : List (String × Outcome))
      (s' s'' : κ → γ), f.Formats false paths s calls outcomes s' →
      f.Formats checkOnly paths s' calls' outcomes' s'' →
        Converges outcomes s' checkOnly outcomes' s'' := by
  refine ⟨fun checkOnly => ?_,
    fun checkOnly calls calls' outcomes outcomes' s' s'' h h' => hf.converges h h'⟩
  obtain ⟨outcomes, s', calls, hrun, -, h⟩ := f.exists_formats_formatAll false paths s
  obtain ⟨outcomes', s'', calls', hrun', -, h'⟩ := f.exists_formats_formatAll checkOnly paths s'
  simp only [hrun, hrun']
  exact hf.converges h h'

/-! ## Two paths of one file -/

/-- The file that a path names, where one of them is a link. -/
def linkedFile (path : String) : String :=
  if path = "link.sh" then "a.sh" else path

/-- A formatter that takes away the blanks at the end of files, each of which is here the number of
these. One of them cannot be written. -/
def trimming : Formatter (String → Nat) where
  needsFormat path := return .ok (0 < (← get) (linkedFile path))
  write path := do
    if linkedFile path = "locked.sh" then return .error .permissionDenied
    modify (Function.update · (linkedFile path) 0)
    return .ok ()

theorem settles_trimming : trimming.Settles linkedFile fun _ blanks => .ok (0 < blanks) where
  judges path s := rfl
  writes path s := by
    by_cases hlocked : linkedFile path = "locked.sh"
    · refine .inl ⟨.permissionDenied, ?_⟩
      simp only [trimming, hlocked]
      rfl
    · refine .inr ⟨0, fun _ _ => rfl, ?_⟩
      simp only [trimming, hlocked]
      rfl

theorem formatting_converges_trimming :
    let paths := ["a.sh", "link.sh", "locked.sh"]
    let first := (trimming.formatAll false paths).run fun _ => 2
    let second := (trimming.formatAll true paths).run first.2
    (trimming.Settles linkedFile fun _ blanks => .ok (0 < blanks)) ∧
      first.1 = [("a.sh", .formatted), ("link.sh", .unchanged),
        ("locked.sh", .failed "Permission denied (os error 13)")] ∧
      second.1 = [("a.sh", .unchanged), ("link.sh", .unchanged), ("locked.sh", .needsFormat)] ∧
      Converges first.1 first.2 true second.1 second.2 :=
  ⟨settles_trimming, by decide, by decide, (formatting_converges settles_trimming _ _).1 true⟩

end ScriptLint.Formatter
