import Mathlib.Data.List.Perm.Basic
import ScriptLint.Formatting.Formatter
import ScriptLint.Report.Outcomes

/-!
Formatting files, in whatever order workers call the formatter. A worker asks about a file and, if
it has to, writes it; calls of other workers may come between (`Runs`). Main statements:
`Runs.accounts`, how at every moment the calls account for what the workers have done, and
`formats_exactly`, what a finished run has called and what it tells. `Formatter.formatAll`, which
takes file after file, is one of these runs.
-/

namespace ScriptLint

/-- A call of a formatter, with its answer. -/
inductive Call where
  | asked (path : String) (answer : Except IoError Bool)
  | wrote (path : String) (answer : Except IoError Unit)

namespace Call

/-- The path about which the formatter is asked. -/
def asks : Call → List String
  | asked path _ => [path]
  | wrote .. => []

/-- The path, if the answer is that it needs formatting. -/
def needs : Call → List String
  | asked path (.ok true) => [path]
  | _ => []

/-- The path that is written, with whatever success. -/
def writes : Call → List String
  | wrote path _ => [path]
  | asked .. => []

/-- The outcome that the answer settles. -/
def settles (checkOnly : Bool) : Call → List (String × Outcome)
  | asked path (.ok false) => [(path, .unchanged)]
  | asked path (.ok true) => if checkOnly then [(path, .needsFormat)] else []
  | wrote path (.ok ()) => [(path, .formatted)]
  | asked path (.error e) | wrote path (.error e) => [(path, .failed e.message)]

end Call

/-- How far a worker has come with a file. -/
inductive Task where
  /-- The formatter has not been asked yet. -/
  | asking (path : String)
  /-- The file needs formatting, and is going to be written. -/
  | writing (path : String)
  | done (path : String) (outcome : Outcome)

namespace Task

def path : Task → String
  | asking path | writing path | done path _ => path

/-- The path, once the formatter has been asked about it. -/
def asked : Task → List String
  | asking _ => []
  | writing path | done path _ => [path]

/-- The path, as long as it is going to be written. -/
def pending : Task → List String
  | writing path => [path]
  | asking _ | done .. => []

def outcomes : Task → List (String × Outcome)
  | done path outcome => [(path, outcome)]
  | asking _ | writing _ => []

/-- The task of a file with its outcome. -/
def ofOutcome (o : String × Outcome) : Task :=
  done o.1 o.2

end Task

namespace Formatter

/-- One call of a worker. -/
inductive Works {σ : Type} (f : Formatter σ) (checkOnly : Bool) : Task → σ → Call → Task → σ → Prop
  | clean {path : String} {s s' : σ} (h : (f.needsFormat path).run s = (.ok false, s')) :
      Works f checkOnly (.asking path) s (.asked path (.ok false)) (.done path .unchanged) s'
  | differs {path : String} {s s' : σ} (h : (f.needsFormat path).run s = (.ok true, s'))
      (hc : checkOnly = true) :
      Works f checkOnly (.asking path) s (.asked path (.ok true)) (.done path .needsFormat) s'
  | begins {path : String} {s s' : σ} (h : (f.needsFormat path).run s = (.ok true, s'))
      (hc : checkOnly = false) :
      Works f checkOnly (.asking path) s (.asked path (.ok true)) (.writing path) s'
  | rejected {path : String} {s s' : σ} {e : IoError}
    (h : (f.needsFormat path).run s = (.error e, s')) :
      Works f checkOnly (.asking path) s (.asked path (.error e))
        (.done path (.failed e.message)) s'
  | written {path : String} {s s' : σ} (h : (f.write path).run s = (.ok (), s')) :
      Works f checkOnly (.writing path) s (.wrote path (.ok ())) (.done path .formatted) s'
  | stuck {path : String} {s s' : σ} {e : IoError} (h : (f.write path).run s = (.error e, s')) :
      Works f checkOnly (.writing path) s (.wrote path (.error e))
        (.done path (.failed e.message)) s'

/-- Calls of the workers on some tasks, in any order. -/
inductive Runs {σ : Type} (f : Formatter σ) (checkOnly : Bool) (tasks : List Task) (s : σ) :
    List Call → List Task → σ → Prop
  | start : Runs f checkOnly tasks s [] tasks s
  | next (before after : List Task) {calls : List Call} {task task' : Task} {s' s'' : σ}
    {call : Call} (h : Runs f checkOnly tasks s calls (before ++ task :: after) s')
    (hw : f.Works checkOnly task s' call task' s'') :
      Runs f checkOnly tasks s (calls ++ [call]) (before ++ task' :: after) s''

/-- Formatting files to the end, with the calls in any order. -/
def Formats {σ : Type} (f : Formatter σ) (checkOnly : Bool) (paths : List String) (s : σ)
    (calls : List Call) (outcomes : List (String × Outcome)) (s' : σ) : Prop :=
  f.Runs checkOnly (paths.map .asking) s calls (outcomes.map .ofOutcome) s'

variable {σ : Type} {f : Formatter σ} {checkOnly : Bool} {path : String} {paths : List String}
  {s s' : σ} {call : Call} {calls : List Call} {task task' : Task} {tasks tasks' : List Task}
  {outcomes : List (String × Outcome)}

/-! ## Accounts -/

namespace Works

variable (h : f.Works checkOnly task s call task' s')
include h

theorem path_eq : task'.path = task.path := by
  cases h <;> rfl

theorem asked_eq : task'.asked = call.asks ++ task.asked := by
  cases h <;> rfl

theorem outcomes_eq : task'.outcomes = call.settles checkOnly ++ task.outcomes := by
  cases h with
  | differs h hc => simp [Task.outcomes, Call.settles, hc]
  | begins h hc => simp [Task.outcomes, Call.settles, hc]
  | _ => rfl

/-- A file that needs formatting is going to be written, and is written once. -/
theorem needs_eq (hc : checkOnly = false) :
    call.needs ++ task.pending = call.writes ++ task'.pending := by
  cases h with
  | differs h ht => cases hc.symm.trans ht
  | _ => rfl

/-- Where files are only checked, no file is going to be written. -/
theorem pending_eq_nil (hc : checkOnly = true) (hp : task.pending = []) :
    call.writes = [] ∧ task'.pending = [] := by
  cases h with
  | begins h hf => cases hc.symm.trans hf
  | written h => cases hp
  | stuck h => cases hp
  | _ => exact ⟨rfl, rfl⟩

end Works

/-- How the calls account for what the workers have done. -/
structure Accounts (checkOnly : Bool) (paths : List String) (calls : List Call)
    (tasks : List Task) :
    Prop where
  /-- Each file keeps its place. -/
  paths : tasks.map Task.path = paths
  asked : (calls.flatMap Call.asks).Perm (tasks.flatMap Task.asked)
  settled : (calls.flatMap (Call.settles checkOnly)).Perm (tasks.flatMap Task.outcomes)
  /-- What needs formatting has been written, or is going to be. -/
  written : checkOnly = false →
    (calls.flatMap Call.needs).Perm (calls.flatMap Call.writes ++ tasks.flatMap Task.pending)
  unwritten : checkOnly = true → calls.flatMap Call.writes = [] ∧ tasks.flatMap Task.pending = []

theorem accounts_start (checkOnly : Bool) (paths : List String) :
    Accounts checkOnly paths [] (paths.map .asking) := by
  have hnone {α : Type} (g : Task → List α) (hg : ∀ path, g (.asking path) = []) :
      (paths.map Task.asking).flatMap g = [] := by
    simp [List.flatMap_eq_nil_iff, hg]
  refine ⟨?_, ?_, ?_, fun _ => ?_, fun _ => ⟨rfl, ?_⟩⟩
  · rw [List.map_map]
    exact List.map_id' paths
  · rw [hnone _ fun _ => rfl]
    rfl
  · rw [hnone _ fun _ => rfl]
    rfl
  · rw [hnone _ fun _ => rfl]
    rfl
  · exact hnone _ fun _ => rfl

/-- A worker's entry changes among those of the others. -/
theorem perm_step {α : Type} [BEq α] [LawfulBEq α] (paid cost : List α)
    {entries before after entry entry' new : List α}
    (h : entries.Perm (paid ++ (before ++ (entry ++ after)))) (he : new ++ entry = cost ++ entry') :
    (entries ++ new).Perm (paid ++ cost ++ (before ++ (entry' ++ after))) := by
  refine List.perm_iff_count.mpr fun a => ?_
  have hcount := List.perm_iff_count.mp h a
  have hstep := congrArg (List.count a) he
  simp only [List.count_append] at hcount hstep ⊢
  omega

/-- The step lemma: each call is accounted for. -/
theorem Accounts.next {before after : List Task}
    (h : Accounts checkOnly paths calls (before ++ task :: after))
    (hw : f.Works checkOnly task s call task' s') :
    Accounts checkOnly paths (calls ++ [call]) (before ++ task' :: after) := by
  obtain ⟨hpaths, hasked, hsettled, hwritten, hunwritten⟩ := h
  simp only [List.map_append, List.map_cons, List.flatMap_append, List.flatMap_cons,
    List.append_eq_nil_iff] at *
  refine ⟨?_, ?_, ?_, fun hc => ?_, fun hc => ?_⟩
  · rw [List.map_append, List.map_cons, hw.path_eq]
    exact hpaths
  · have hstep : call.asks ++ task.asked = [] ++ task'.asked := hw.asked_eq.symm
    simpa using perm_step [] [] hasked hstep
  · have hstep : call.settles checkOnly ++ task.outcomes = [] ++ task'.outcomes :=
      hw.outcomes_eq.symm
    simpa using perm_step [] [] hsettled hstep
  · simpa using perm_step (calls.flatMap Call.writes) call.writes (hwritten hc) (hw.needs_eq hc)
  · obtain ⟨hwrites, hbefore, hpending, hafter⟩ := hunwritten hc
    obtain ⟨hcall, hpending'⟩ := hw.pending_eq_nil hc hpending
    simp [hwrites, hbefore, hafter, hcall, hpending']

/-- What each call keeps, a run keeps. -/
theorem Runs.keeps {P : σ → Prop} (h : f.Runs checkOnly tasks s calls tasks' s')
    (hstep : ∀ {task call task' s s'}, f.Works checkOnly task s call task' s' → P s → P s')
      (hs : P s) : P s' := by
  induction h with
  | start => exact hs
  | next _ _ _ hw ih => exact hstep hw ih

/-- The run lemma: at every moment the calls account for what has been done. -/
theorem Runs.accounts (h : f.Runs checkOnly (paths.map .asking) s calls tasks s') :
    Accounts checkOnly paths calls tasks := by
  induction h with
  | start => exact accounts_start checkOnly paths
  | next before after _ hw ih => exact ih.next hw

/-- What the calls of a finished run come to. -/
structure Finished (checkOnly : Bool) (paths : List String) (calls : List Call)
    (outcomes : List (String × Outcome)) : Prop where
  /-- One outcome for each path, in order. -/
  inOrder : outcomes.map (·.1) = paths
  /-- The formatter is asked once about each path. -/
  askedOnce : (calls.flatMap Call.asks).Perm paths
  /-- It writes once what needs formatting, and nothing where files are only checked. -/
  writesNeeded : (calls.flatMap Call.writes).Perm
    (if checkOnly then [] else calls.flatMap Call.needs)
  /-- Each outcome is settled by an answer. -/
  settled : outcomes.Perm (calls.flatMap (Call.settles checkOnly))

theorem Formats.finished (h : f.Formats checkOnly paths s calls outcomes s') :
    Finished checkOnly paths calls outcomes := by
  obtain ⟨hpaths, hasked, hsettled, hwritten, hunwritten⟩ := Runs.accounts h
  rw [List.flatMap_map] at hasked hsettled
  have hpaths' : outcomes.map (·.1) = paths := by
    rw [← hpaths, List.map_map]
    rfl
  refine ⟨hpaths', ?_, ?_, ?_⟩
  · have hsingle : (outcomes.flatMap fun o => (Task.ofOutcome o).asked) = outcomes.map (·.1) :=
      List.map_eq_flatMap.symm
    rwa [hsingle, hpaths'] at hasked
  · cases hc : checkOnly with
    | true => simp [(hunwritten hc).1]
    | false =>
      have hpending : (outcomes.map Task.ofOutcome).flatMap Task.pending = [] := by
        rw [List.flatMap_map]
        exact List.flatMap_eq_nil_iff.mpr fun _ _ => rfl
      simpa [hpending] using (hwritten hc).symm
  · have hsingle : (outcomes.flatMap fun o => (Task.ofOutcome o).outcomes) = outcomes := by
      exact List.map_eq_flatMap.symm.trans (List.map_id outcomes)
    rw [hsingle] at hsettled
    exact hsettled.symm

/-! ## File after file -/

/-- The formatter, with a record of its calls. -/
def recording (f : Formatter σ) : Formatter (σ × List Call) where
  needsFormat path := StateT.mk fun (s, calls) =>
    let (answer, s') := (f.needsFormat path).run s
    (answer, (s', calls ++ [.asked path answer]))
  write path := StateT.mk fun (s, calls) =>
    let (answer, s') := (f.write path).run s
    (answer, (s', calls ++ [.wrote path answer]))

theorem run_format (f : Formatter σ) (checkOnly : Bool) (path : String) (s : σ) :
    (f.format checkOnly path).run s =
      match (f.needsFormat path).run s with
      | (.ok false, s') => (.unchanged, s')
      | (.ok true, s') =>
        if checkOnly then (.needsFormat, s')
        else
          match (f.write path).run s' with
          | (.ok (), s'') => (.formatted, s'')
          | (.error e, s'') => (.failed e.message, s'')
      | (.error e, s') => (.failed e.message, s') := by
  rw [format, formatWith, StateT.run_bind]
  rcases (f.needsFormat path).run s with ⟨e | _ | _, s'⟩
  · rfl
  · rfl
  cases checkOnly with
  | true => rfl
  | false =>
    refine (StateT.run_bind (f.write path) _ s').trans ?_
    simp only [Bool.false_eq_true, if_false]
    rcases (f.write path).run s' with ⟨e | _, s''⟩
    · rfl
    · rfl

/-- A worker that takes a file alone. -/
theorem exists_runs_format (f : Formatter σ) (checkOnly : Bool) (path : String) (s : σ)
    (calls : List Call) :
    ∃ (o : Outcome) (s' : σ) (calls' : List Call), (f.format checkOnly path).run s = (o, s') ∧
      (f.recording.format checkOnly path).run (s, calls) = (o, (s', calls')) ∧
      ∀ {tasks before after : List Task} {s₀ : σ},
        f.Runs checkOnly tasks s₀ calls (before ++ .asking path :: after) s →
        f.Runs checkOnly tasks s₀ calls' (before ++ .done path o :: after) s' := by
  simp only [run_format, recording, StateT.run_mk]
  rcases hn : (f.needsFormat path).run s with ⟨e | _ | _, s'⟩
  · exact ⟨_, _, _, rfl, rfl, fun h => h.next _ _ (.rejected hn)⟩
  · exact ⟨_, _, _, rfl, rfl, fun h => h.next _ _ (.clean hn)⟩
  cases hc : checkOnly with
  | true => exact ⟨_, _, _, rfl, rfl, fun h => h.next _ _ (.differs hn rfl)⟩
  | false =>
    rcases hw : (f.write path).run s' with ⟨e | _, s''⟩
    · exact ⟨_, _, _,
        by simp [hw], by simp [hw], fun h => (h.next _ _ (.begins hn rfl)).next _ _ (.stuck hw)⟩
    · exact ⟨_, _, _,
        by simp [hw], by simp [hw], fun h => (h.next _ _ (.begins hn rfl)).next _ _ (.written hw)⟩

theorem run_formatAll_cons (f : Formatter σ) (checkOnly : Bool) (path : String)
    (paths : List String) (s : σ) :
    (f.formatAll checkOnly (path :: paths)).run s =
      let (o, s') := (f.format checkOnly path).run s
      let (outcomes, s'') := (f.formatAll checkOnly paths).run s'
      ((path, o) :: outcomes, s'') := by
  simp only [formatAll, List.mapM_cons]
  rfl

/-- Workers that take file after file, from where others have done some of them. -/
theorem runs_formatAll (f : Formatter σ) (checkOnly : Bool) {tasks : List Task} {s₀ : σ}
    {ended : List (String × Outcome)}
    (h : f.Runs checkOnly tasks s₀ calls (ended.map .ofOutcome ++ paths.map .asking) s) :
    ∃ (outcomes : List (String × Outcome)) (s' : σ) (calls' : List Call),
      (f.formatAll checkOnly paths).run s = (outcomes, s') ∧
      (f.recording.formatAll checkOnly paths).run (s, calls) = (outcomes, (s', calls')) ∧
      f.Runs checkOnly tasks s₀ calls' ((ended ++ outcomes).map .ofOutcome) s' := by
  induction paths generalizing s calls ended with
  | nil => exact ⟨[], s, calls, rfl, rfl, by simpa using h⟩
  | cons path paths ih =>
    obtain ⟨o, s', calls', hrun, hrecorded, hruns⟩ := f.exists_runs_format checkOnly path s calls
    have hnext : f.Runs checkOnly tasks s₀ calls'
        ((ended ++ [(path, o)]).map .ofOutcome ++ paths.map .asking) s' := by
      simpa [Task.ofOutcome] using hruns h
    obtain ⟨outcomes, s'', calls'', hrun', hrecorded', hruns'⟩ := ih hnext
    refine ⟨(path, o) :: outcomes, s'', calls'', ?_, ?_, by simpa using hruns'⟩
    · rw [run_formatAll_cons, hrun]
      simp only [hrun']
    · rw [run_formatAll_cons, hrecorded]
      simp only [hrecorded']

/-- Taking file after file is one of the orders. -/
theorem exists_formats_formatAll (f : Formatter σ) (checkOnly : Bool) (paths : List String)
    (s : σ) :
    ∃ (outcomes : List (String × Outcome)) (s' : σ) (calls : List Call),
      (f.formatAll checkOnly paths).run s = (outcomes, s') ∧
      (f.recording.formatAll checkOnly paths).run (s, []) = (outcomes, (s', calls)) ∧
      f.Formats checkOnly paths s calls outcomes s' := by
  have hstart : f.Runs checkOnly (paths.map .asking) s []
      (([] : List (String × Outcome)).map .ofOutcome ++ paths.map .asking) s := .start
  exact f.runs_formatAll checkOnly hstart

/-! ## Reports and exit codes -/

/-- The outcomes that a mode knows. -/
def fitsMode (checkOnly : Bool) : Outcome → Bool
  | .unchanged | .failed _ => true
  | .formatted => !checkOnly
  | .needsFormat => checkOnly

/-- What a file comes to that is not left as it is. -/
def changedOutcome (checkOnly : Bool) : Outcome :=
  if checkOnly then .needsFormat else .formatted

/-- The last line of a report, with the four numbers that it tells. -/
def countsLine (style : ReportStyle) (checkOnly : Bool) (files unchanged changed failed : Nat) :
    String :=
  "Summary: " ++ decimalText files ++ " files, " ++ decimalText unchanged ++ " unchanged, " ++
    (decimalText changed ++ if checkOnly then " need formatting" else " formatted") ++ ", " ++
    style.paint .red (decimalText failed) ++ " failed\n"

/-- How many outcomes are of a kind. -/
def counted (outcomes : List (String × Outcome)) (kind : Outcome → Bool) : Nat :=
  outcomes.countP fun o => kind o.2

theorem report_eq_append_countsLine (style : ReportStyle) (checkOnly : Bool)
    (outcomes : List (String × Outcome)) :
    ∃ lines, Report.outcomes style checkOnly outcomes =
      lines ++ countsLine style checkOnly outcomes.length (counted outcomes (· == .unchanged))
        (counted outcomes (· == changedOutcome checkOnly))
          (counted outcomes fun o => o matches .failed _) := by
  refine ⟨String.join (outcomes.map fun entry => Report.outcome style entry.1 entry.2), ?_⟩
  have hcount (kind : Outcome → Bool) : (outcomes.map (·.2)).countP kind = counted outcomes kind :=
    List.countP_map
  unfold Report.outcomes Report.outcomeSummary countsLine
  simp only [hcount, List.length_map]
  cases checkOnly with
  | true => rfl
  | false => rfl

/-- Each mode knows three kinds of outcomes, and each outcome is of one of them. -/
theorem counted_add_counted (hfits : ∀ o ∈ outcomes, fitsMode checkOnly o.2) :
    counted outcomes (· == .unchanged) + counted outcomes (· == changedOutcome checkOnly) +
      counted outcomes (fun o => o matches .failed _) = outcomes.length := by
  induction outcomes with
  | nil => rfl
  | cons o rest ih =>
    have hrest := ih fun o hm => hfits o (List.mem_cons_of_mem _ hm)
    have hone : (if o.2 == .unchanged then 1 else 0) +
        (if o.2 == changedOutcome checkOnly then 1 else 0) +
        (if o.2 matches .failed _ then 1 else 0) = 1 := by
      have hfit := hfits o List.mem_cons_self
      cases checkOnly <;> cases ho : o.2 <;> simp_all [fitsMode, changedOutcome]
    simp only [counted, List.countP_cons, List.length_cons] at hrest ⊢
    omega

theorem exitCode_eq_success_iff (hfits : ∀ o ∈ outcomes, fitsMode checkOnly o.2) :
    Outcome.exitCode checkOnly outcomes = .success ↔
      (∀ o ∈ outcomes, o.2 = .unchanged) ∨
        checkOnly = false ∧ ∀ o ∈ outcomes, ∀ reason, o.2 ≠ .failed reason := by
  have hsuccess : Outcome.exitCode checkOnly outcomes = .success ↔
      ∀ o ∈ outcomes, o.2.isFailure checkOnly = false := by
    simp [Outcome.exitCode]
  rw [hsuccess]
  cases checkOnly with
  | true =>
    have hunchanged : ∀ o ∈ outcomes, o.2.isFailure true = false ↔ o.2 = .unchanged := by
      intro o hm
      have hfit := hfits o hm
      cases ho : o.2 <;> simp_all [fitsMode, Outcome.isFailure]
    simpa using forall₂_congr hunchanged
  | false =>
    have hfailed (o : Outcome) : o.isFailure false = false ↔ ∀ reason, o ≠ .failed reason := by
      cases o <;> simp [Outcome.isFailure]
    simp only [hfailed, true_and]
    refine ⟨.inr, ?_⟩
    rintro (h | h) o hm
    · rw [h o hm]
      exact fun _ => Outcome.noConfusion
    · exact h o hm

/-- An outcome that the mode does not know would need a call that the mode does not make. -/
theorem Finished.fitsMode (h : Finished checkOnly paths calls outcomes) :
    ∀ o ∈ outcomes, fitsMode checkOnly o.2 := by
  intro o hm
  obtain ⟨call, hcall, hsettles⟩ := List.mem_flatMap.mp (h.settled.mem_iff.mp hm)
  cases checkOnly with
  | false =>
    rcases call with ⟨path, e | _ | _⟩ | ⟨path, e | _⟩
      <;> simp_all [Call.settles, Formatter.fitsMode]
  | true =>
    rcases call with ⟨path, e | _ | _⟩ | ⟨path, answer⟩
    · simp_all [Call.settles, Formatter.fitsMode]
    · simp_all [Call.settles, Formatter.fitsMode]
    · simp_all [Call.settles, Formatter.fitsMode]
    · have hnone : calls.flatMap Call.writes = [] := h.writesNeeded.eq_nil
      have hwritten := List.flatMap_eq_nil_iff.mp hnone _ hcall
      cases hwritten

/-- Formatting asks about each file and writes exactly what it must, in any order of the calls, and
its report and its exit code tell so. Taking file after file is one of the orders. -/
theorem formats_exactly (f : Formatter σ) (checkOnly : Bool) (paths : List String) (s : σ)
    (style : ReportStyle) :
    (∃ (outcomes : List (String × Outcome)) (s' : σ) (calls : List Call),
      (f.formatAll checkOnly paths).run s = (outcomes, s') ∧
      (f.recording.formatAll checkOnly paths).run (s, []) = (outcomes, (s', calls)) ∧
      f.Formats checkOnly paths s calls outcomes s') ∧
    ∀ (calls : List Call) (outcomes : List (String × Outcome)) (s' : σ),
      f.Formats checkOnly paths s calls outcomes s' →
      Finished checkOnly paths calls outcomes ∧
      (∀ o ∈ outcomes, fitsMode checkOnly o.2) ∧
      (∃ (lines : String) (unchanged changed failed : Nat),
        Report.outcomes style checkOnly outcomes =
          lines ++ countsLine style checkOnly paths.length unchanged changed failed ∧
        unchanged = counted outcomes (· == .unchanged) ∧
        changed = counted outcomes (· == changedOutcome checkOnly) ∧
        failed = counted outcomes (fun o => o matches .failed _) ∧
        unchanged + changed + failed = paths.length) ∧
      (Outcome.exitCode checkOnly outcomes = .success ↔
        (∀ o ∈ outcomes, o.2 = .unchanged) ∨
          checkOnly = false ∧ ∀ o ∈ outcomes, ∀ reason, o.2 ≠ .failed reason) := by
  refine ⟨f.exists_formats_formatAll checkOnly paths s, fun calls outcomes s' h => ?_⟩
  have hfinished := h.finished
  have hfits := hfinished.fitsMode
  have hlength : outcomes.length = paths.length := by
    rw [← hfinished.inOrder, List.length_map]
  obtain ⟨lines, hreport⟩ := report_eq_append_countsLine style checkOnly outcomes
  rw [hlength] at hreport
  exact ⟨hfinished, hfits,
    ⟨lines, _, _, _, hreport, rfl, rfl, rfl, hlength ▸ counted_add_counted hfits⟩,
    exitCode_eq_success_iff hfits⟩

/-! ## Two workers whose calls alternate -/

/-- A formatter on a list of the files that need formatting. -/
def tidying : Formatter (List String) where
  needsFormat path := return .ok ((← get).contains path)
  write path := do
    modify (·.erase path)
    return .ok ()

theorem formats_tidying :
    tidying.Formats false ["a.sh", "b.sh"] ["b.sh", "a.sh"]
      [.asked "a.sh" (.ok true), .asked "b.sh" (.ok true), .wrote "b.sh" (.ok ()),
        .wrote "a.sh" (.ok ())]
      [("a.sh", .formatted), ("b.sh", .formatted)] [] := by
  have hstart : tidying.Runs false [.asking "a.sh", .asking "b.sh"] ["b.sh", "a.sh"] []
      [.asking "a.sh", .asking "b.sh"] ["b.sh", "a.sh"] := .start
  have hasked := hstart.next [] [.asking "b.sh"] (.begins (by rfl) rfl)
  have hboth := hasked.next [.writing "a.sh"] [] (.begins (by rfl) rfl)
  have hwrote := hboth.next [.writing "a.sh"] [] (.written (by rfl))
  exact hwrote.next [] [.done "b.sh" .formatted] (.written (by rfl))

theorem formats_exactly_tidying :
    let paths := ["a.sh", "b.sh"]
    let calls : List Call :=
      [.asked "a.sh" (.ok true), .asked "b.sh" (.ok true), .wrote "b.sh" (.ok ()),
        .wrote "a.sh" (.ok ())]
    let outcomes : List (String × Outcome) := [("a.sh", .formatted), ("b.sh", .formatted)]
    tidying.Formats false paths ["b.sh", "a.sh"] calls outcomes [] ∧
      Finished false paths calls outcomes ∧ Outcome.exitCode false outcomes = .success := by
  have h := (formats_exactly tidying false ["a.sh", "b.sh"] ["b.sh", "a.sh"]
    {}).2 _ _ _ formats_tidying
  exact ⟨formats_tidying, h.1, rfl⟩

end Formatter

end ScriptLint
