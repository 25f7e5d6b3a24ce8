import Mathlib
import ScriptLint.Program.Formatter
import ScriptLint.Program.Scripted
import ScriptLint.Proofs.Formatting

/-!
What a formatter program has to print for a file to be rewritten. A program that shows changes fails
with status 1, but every failed run that prints anything is taken for one that shows changes. Main
statements: `Runs.founded`, no file is written that the formatter did not say to differ before,
`isFaithful_needsFormat_iff`, for which runs the answer is the right one, and `toFormatter_answers`.
-/

namespace ScriptLint

namespace Formatter

variable {σ : Type} {f : Formatter σ} {checkOnly : Bool} {path : String} {paths : List String}
  {s s' : σ} {call : Call} {calls : List Call} {task task' : Task} {tasks before after : List Task}

/-- The path, if the file is going to be written, or has come to an outcome that needs it to
differ. -/
def differing : Task → List String
  | .writing path | .done path .needsFormat | .done path .formatted => [path]
  | .asking _ | .done _ .unchanged | .done _ (.failed _) => []

/-- The calls so far are the ground for what the tasks have come to. -/
structure Founded (f : Formatter σ) (calls : List Call) (tasks : List Task) : Prop where
  tasks : ∀ task ∈ tasks, ∀ path ∈ differing task, Call.asked path (.ok true) ∈ calls
  /-- A file is asked about before it is written. -/
  writes : ∀ before path answer after, calls = before ++ .wrote path answer :: after →
    Call.asked path (.ok true) ∈ before
  /-- The answers are those of the formatter. -/
  answers : ∀ path answer, Call.asked path answer ∈ calls →
    ∃ s s', (f.needsFormat path).run s = (answer, s')

theorem founded_start (f : Formatter σ) (paths : List String) :
    f.Founded [] (paths.map .asking) := by
  refine ⟨?_, ?_, nofun⟩
  · intro task hm path hpath
    obtain ⟨_, _, rfl⟩ := List.mem_map.mp hm
    cases hpath
  · intro before path answer after h
    simp at h

/-- A file does not come to differ but by an answer that says so. -/
theorem Works.differing_or_asked (hw : f.Works checkOnly task s call task' s') :
    ∀ path ∈ differing task', path ∈ differing task ∨ call = .asked path (.ok true) := by
  intro path hpath
  cases hw with
  | differs h hc =>
    cases List.mem_singleton.mp hpath
    exact .inr rfl
  | begins h hc =>
    cases List.mem_singleton.mp hpath
    exact .inr rfl
  | written h => exact .inl hpath
  | _ => cases hpath

theorem Works.differing_of_wrote {answer : Except IoError Unit}
    (hw : f.Works checkOnly task s (.wrote path answer) task' s') : path ∈ differing task := by
  cases hw with
  | written h => exact List.mem_singleton_self path
  | stuck h => exact List.mem_singleton_self path

theorem Works.answer {answer : Except IoError Bool}
    (hw : f.Works checkOnly task s (.asked path answer) task' s') :
    (f.needsFormat path).run s = (answer, s') := by
  cases hw <;> assumption

/-- The step lemma. -/
theorem Founded.next (h : f.Founded calls (before ++ task :: after))
    (hw : f.Works checkOnly task s call task' s') :
    f.Founded (calls ++ [call]) (before ++ task' :: after) := by
  obtain ⟨htasks, hwrites, hanswers⟩ := h
  have hkept {other : Task} (hm : other ∈ before ++ task :: after) :
      ∀ path ∈ differing other, Call.asked path (.ok true) ∈ calls ++ [call] :=
    fun path hpath => List.mem_append_left _ (htasks other hm path hpath)
  refine ⟨?_, ?_, ?_⟩
  · intro other hm path hpath
    rcases List.mem_append.mp hm with hm | hm
    · exact hkept (by simp [hm]) path hpath
    · rcases List.mem_cons.mp hm with rfl | hm
      · rcases hw.differing_or_asked path hpath with hpath | rfl
        · exact hkept (by simp) path hpath
        · simp
      · exact hkept (by simp [hm]) path hpath
  · intro earlier path answer later he
    rcases List.eq_nil_or_concat later with rfl | ⟨later, last, rfl⟩
    · obtain ⟨rfl, hcall⟩ := List.append_inj' he rfl
      cases hcall
      exact htasks task (by simp) path hw.differing_of_wrote
    · rw [List.concat_eq_append, ← List.cons_append, ← List.append_assoc] at he
      exact hwrites earlier path answer later (List.append_inj' he rfl).1
  · intro path answer hm
    rcases List.mem_append.mp hm with hm | hm
    · exact hanswers path answer hm
    · cases List.mem_singleton.mp hm
      exact ⟨s, s', hw.answer⟩

/-- The run lemma. -/
theorem Runs.founded (h : f.Runs checkOnly (paths.map .asking) s calls tasks s') :
    f.Founded calls tasks := by
  induction h with
  | start => exact founded_start f paths
  | next before after _ hw ih => exact ih.next hw

end Formatter

/-! ## Formatting programs -/

namespace ProgramOutput

/-- The run failed with status 1 and printed something. -/
def ShowsChanges (output : ProgramOutput) : Prop :=
  output.status = .code 1 ∧ output.stdout.isEmpty = false

/-- The run failed in another way, and yet it printed something. -/
def Misleads (output : ProgramOutput) : Prop :=
  output.status ≠ .code 0 ∧ output.status ≠ .code 1 ∧ output.stdout.isEmpty = false

end ProgramOutput

namespace FormatterProgram

/-- The answer that only takes a run for one that shows changes if it is one. -/
structure IsFaithful (output : ProgramOutput) (answer : Except IoError Bool) : Prop where
  clean : answer = .ok false ↔ output.status = .code 0
  changes : answer = .ok true ↔ output.ShowsChanges
  rejected : (∃ e, answer = .error e) ↔ output.status ≠ .code 0 ∧ ¬output.ShowsChanges

variable {f : FormatterProgram} {programs : Programs} {output : ProgramOutput} {path : String}
  {t t' : FileTree}

/-- The three answers, each with the runs for which it is given. -/
theorem needsFormat_cases (output : ProgramOutput) :
    output.status = .code 0 ∧ needsFormat output = .ok false ∨
    output.status ≠ .code 0 ∧ output.stdout.isEmpty = false ∧ needsFormat output = .ok true ∨
    output.status ≠ .code 0 ∧ output.stdout.isEmpty = true ∧
      needsFormat output = .error (complaint output) := by
  by_cases hs : output.status = .code 0
  · exact .inl ⟨hs, by simp [needsFormat, ExitStatus.isSuccess, hs]⟩
  · cases ho : output.stdout.isEmpty with
    | false => exact .inr (.inl ⟨hs, rfl, by simp [needsFormat, ExitStatus.isSuccess, hs, ho]⟩)
    | true => exact .inr (.inr ⟨hs, rfl, by simp [needsFormat, ExitStatus.isSuccess, hs, ho]⟩)

theorem showsChanges_or_misleads_iff :
    output.ShowsChanges ∨ output.Misleads ↔
      output.status ≠ .code 0 ∧ output.stdout.isEmpty = false := by
  constructor
  · rintro (⟨hs, ho⟩ | ⟨hs, -, ho⟩)
    · exact ⟨by simp [hs], ho⟩
    · exact ⟨hs, ho⟩
  · rintro ⟨hs, ho⟩
    by_cases hone : output.status = .code 1
    · exact .inl ⟨hone, ho⟩
    · exact .inr ⟨hs, hone, ho⟩

theorem needsFormat_eq_ok_false_iff : needsFormat output = .ok false ↔ output.status = .code 0 := by
  rcases needsFormat_cases output with ⟨hs, h⟩ | ⟨hs, -, h⟩ | ⟨hs, -, h⟩
  · simp [h, hs]
  · simp [h, hs]
  · simp [h, hs]

theorem needsFormat_eq_ok_true_iff :
    needsFormat output = .ok true ↔ output.ShowsChanges ∨ output.Misleads := by
  rw [showsChanges_or_misleads_iff]
  rcases needsFormat_cases output with ⟨hs, h⟩ | ⟨hs, ho, h⟩ | ⟨-, ho, h⟩
  · simp [h, hs]
  · simp [h, hs, ho]
  · simp [h, ho]

theorem needsFormat_eq_error_iff {e : IoError} :
    needsFormat output = .error e ↔
      output.status ≠ .code 0 ∧ output.stdout.isEmpty = true ∧ e = complaint output := by
  rcases needsFormat_cases output with ⟨hs, h⟩ | ⟨-, ho, h⟩ | ⟨hs, ho, h⟩
  · simp [h, hs]
  · simp [h, ho]
  · simp [h, hs, ho, eq_comm]

/-- The answer is the right one for all runs but the misleading ones. -/
theorem isFaithful_needsFormat_iff : IsFaithful output (needsFormat output) ↔ ¬output.Misleads := by
  constructor
  · intro h hmisleads
    have hchanges := h.changes.mp (needsFormat_eq_ok_true_iff.mpr (.inr hmisleads))
    exact hmisleads.2.1 hchanges.1
  · intro h
    refine ⟨needsFormat_eq_ok_false_iff, ?_, ?_⟩
    · rw [needsFormat_eq_ok_true_iff, or_iff_left h]
    · rw [← or_iff_left (a := output.ShowsChanges) h, showsChanges_or_misleads_iff]
      simp only [needsFormat_eq_error_iff, exists_and_left, exists_eq, and_true]
      constructor
      · rintro ⟨hs, ho⟩
        exact ⟨hs, by simp [ho]⟩
      · rintro ⟨hs, ho⟩
        exact ⟨hs, by simpa [hs] using ho⟩

theorem run_needsFormat (f : FormatterProgram) (programs : Programs) (path : String)
    (t : FileTree) :
    ((f.toFormatter programs).needsFormat path).run t =
      (((f.run programs "-d" path).run t).1.bind needsFormat,
        ((f.run programs "-d" path).run t).2) :=
  rfl

/-- The run about which the answer is that the file differs. -/
theorem exists_run_of_needsFormat {answer : Bool}
    (h : ((f.toFormatter programs).needsFormat path).run t = (.ok answer, t')) :
    ∃ output, (f.run programs "-d" path).run t = (.ok output, t') ∧
      needsFormat output = .ok answer := by
  rw [run_needsFormat] at h
  rcases hrun : (f.run programs "-d" path).run t with ⟨e | output, t''⟩
  · rw [hrun] at h
    cases h
  · rw [hrun] at h
    obtain ⟨hanswer, rfl⟩ := Prod.mk.inj h
    exact ⟨output, rfl, hanswer⟩

/-- A file that is written, or that is told to need formatting, was read by a run of the program
before that failed and printed something. -/
theorem exists_run_of_asked {calls : List Call} {tasks : List Task}
    (h : (f.toFormatter programs).Founded calls tasks) (hm : Call.asked path (.ok true) ∈ calls) :
    ∃ t t' output, (f.run programs "-d" path).run t = (.ok output, t') ∧
      (output.ShowsChanges ∨ output.Misleads) := by
  obtain ⟨t, t', hrun⟩ := h.answers path (.ok true) hm
  obtain ⟨output, hrun, hanswer⟩ := exists_run_of_needsFormat hrun
  exact ⟨t, t', output, hrun, needsFormat_eq_ok_true_iff.mp hanswer⟩

/-- What the runs of a formatting program are taken for. Success means that nothing would change,
and a failure without any output is an error, but every failure with output is taken for changes,
whatever the status. The answer is the right one exactly if the run does not mislead; and files are
rewritten, or told to need formatting, after a run that shows changes or that misleads. -/
theorem toFormatter_answers (f : FormatterProgram) (programs : Programs) :
    (∀ (path : String) (t t' : FileTree) (output : ProgramOutput),
      (f.run programs "-d" path).run t = (.ok output, t') →
      ∃ answer, ((f.toFormatter programs).needsFormat path).run t = (answer, t') ∧
        (answer = .ok false ↔ output.status = .code 0) ∧
        (answer = .ok true ↔ output.ShowsChanges ∨ output.Misleads) ∧
        (answer = .error (complaint output) ↔
          output.status ≠ .code 0 ∧ output.stdout.isEmpty = true) ∧
        (IsFaithful output answer ↔ ¬output.Misleads)) ∧
    (∀ (path : String) (t t' : FileTree) (e : IoError), (f.run programs "-d" path).run t =
      (.error e, t') →
      ((f.toFormatter programs).needsFormat path).run t = (.error e, t')) ∧
    ∀ (checkOnly : Bool) (paths : List String) (t t' : FileTree) (calls : List Call)
      (outcomes : List (String × Outcome)),
      (f.toFormatter programs).Formats checkOnly paths t calls outcomes t' →
      (∀ before path answer after, calls = before ++ .wrote path answer :: after →
        Call.asked path (.ok true) ∈ before) ∧
      (∀ path, (path, .needsFormat) ∈ outcomes → Call.asked path (.ok true) ∈ calls) ∧
      ∀ path, Call.asked path (.ok true) ∈ calls →
        ∃ t t' output, (f.run programs "-d" path).run t = (.ok output, t') ∧
          (output.ShowsChanges ∨ output.Misleads) := by
  refine ⟨?_, ?_, ?_⟩
  · intro path t t' output hrun
    refine ⟨needsFormat output, ?_, needsFormat_eq_ok_false_iff, needsFormat_eq_ok_true_iff, ?_,
      isFaithful_needsFormat_iff⟩
    · rw [run_needsFormat, hrun]
      rfl
    · simp [needsFormat_eq_error_iff]
  · intro path t t' e hrun
    rw [run_needsFormat, hrun]
    rfl
  · intro checkOnly paths t t' calls outcomes h
    have hfounded := Formatter.Runs.founded h
    refine ⟨hfounded.writes, ?_, fun path hm => exists_run_of_asked hfounded hm⟩
    intro path hm
    exact hfounded.tasks _ (List.mem_map_of_mem hm) path (List.mem_singleton_self path)

/-! ## A program that crashes -/

/-- A part of the changes, and then status 2. -/
def crash : ProgramOutput where
  status := .code 2
  stdout := "partial".toUTF8
  stderr := "crash".toUTF8

/-- A host whose formatting program crashes where it has to show changes, and adds a character where
it makes them. -/
def crashingPrograms : Programs :=
  ScriptedProgram.programs
    [{ name := "shfmt",
       reactions := [
         { pattern := " -d ", output := crash },
         { pattern := " -w ", output := { status := .code 0 }, appended := ⟨#[35]⟩ }] }] []

def plainShfmt : FormatterProgram where
  program := "shfmt"
  options := []

/-- A tree with one script. -/
def scriptTree (content : ByteArray) : FileTree :=
  ⟨[([['a', '.', 's', 'h']], .file content 0o644)]⟩

theorem misleads_crash : crash.Misleads :=
  ⟨by decide, by decide, by decide⟩

theorem run_crashingPrograms (t : FileTree) :
    (plainShfmt.run crashingPrograms "-d" "a.sh").run t = (.ok crash, t) :=
  rfl

/-- The script is rewritten after the crash. -/
theorem formats_crashingPrograms :
    (plainShfmt.toFormatter crashingPrograms).Formats false ["a.sh"] (scriptTree ⟨#[10]⟩)
      [.asked "a.sh" (.ok true),
        .wrote "a.sh" (.ok ())] [("a.sh", .formatted)] (scriptTree ⟨#[10, 35]⟩) := by
  have hstart : (plainShfmt.toFormatter crashingPrograms).Runs false [.asking "a.sh"]
      (scriptTree ⟨#[10]⟩) []
      [.asking "a.sh"] (scriptTree ⟨#[10]⟩) := .start
  have hasked := hstart.next [] [] (.begins (by rfl) rfl)
  have hwrites : ((plainShfmt.toFormatter crashingPrograms).write "a.sh").run (scriptTree ⟨#[10]⟩) =
      (.ok (), scriptTree ⟨#[10, 35]⟩) := by
    cbv
  exact hasked.next [] [] (.written hwrites)

/-- The crash is taken for changes, and the script is rewritten. -/
theorem toFormatter_answers_crash :
    (∃ answer, ((plainShfmt.toFormatter crashingPrograms).needsFormat "a.sh").run
      (scriptTree ⟨#[10]⟩) =
        (answer, scriptTree ⟨#[10]⟩) ∧ answer = .ok true ∧ ¬IsFaithful crash answer) ∧
    ((plainShfmt.toFormatter noPrograms).needsFormat "a.sh").run (scriptTree ⟨#[10]⟩) =
      (.error .notFound, scriptTree ⟨#[10]⟩) ∧
    ∃ t t' output, (plainShfmt.run crashingPrograms "-d" "a.sh").run t = (.ok output, t') ∧
      (output.ShowsChanges ∨ output.Misleads) := by
  obtain ⟨hruns, -, hformats⟩ := toFormatter_answers plainShfmt crashingPrograms
  obtain ⟨answer, hrun, -, htrue, -, hfaithful⟩ :=
    hruns "a.sh" _ _ crash (run_crashingPrograms (scriptTree ⟨#[10]⟩))
  obtain ⟨-, -, hasked⟩ := hformats false ["a.sh"] _ _ _ _ formats_crashingPrograms
  refine ⟨⟨answer, hrun, htrue.mpr (.inr misleads_crash), fun h => hfaithful.mp h misleads_crash⟩,
    ?_,
    hasked "a.sh" List.mem_cons_self⟩
  exact (toFormatter_answers plainShfmt noPrograms).2.1 "a.sh" _ _ .notFound rfl

/-- Not every answer is the right one. -/
theorem not_isFaithful_crash :
    ¬ ∀ (f : FormatterProgram) (programs : Programs) (path : String) (t t' : FileTree)
      (output : ProgramOutput),
      (f.run programs "-d" path).run t = (.ok output, t') →
      ∃ answer, ((f.toFormatter programs).needsFormat path).run t = (answer, t') ∧
        IsFaithful output answer := by
  intro h
  obtain ⟨answer, hrun, hfaithful⟩ :=
    h plainShfmt crashingPrograms "a.sh" _ _ crash (run_crashingPrograms (scriptTree ⟨#[10]⟩))
  rw [run_needsFormat, run_crashingPrograms] at hrun
  cases hrun
  exact isFaithful_needsFormat_iff.mp hfaithful misleads_crash

end FormatterProgram

end ScriptLint
