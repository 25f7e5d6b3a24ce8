import ScriptLint.Command.Format
import ScriptLint.Proofs.Formatting
import ScriptLint.Proofs.Workers

/-!
The workers of a format run. Main statement: `formats_formatPaths`, whatever turns they take, the
program is called as `Formatter.Formats` says, and the trace has these calls.
-/

namespace ScriptLint

/-- A call of a program with its arguments. -/
def Event.call? : Event → Option (String × List String)
  | called program args => some (program, args)
  | logged _ => none

namespace FormatterProgram

variable {f : FormatterProgram} {programs : Programs} {checkOnly : Bool} {path : String}

/-- How the program is called. -/
def commandLine (f : FormatterProgram) : Call → String × List String
  | .asked path _ => (f.program, f.options ++ ["-d", path])
  | .wrote path _ => (f.program, f.options ++ ["-w", path])

/-- What each step on a file keeps, the work on it keeps. -/
theorem format_passes {W : Type} {L : Logic W} {P : W → Prop}
    (hsay : ∀ entries, L.triple P (Traced.say entries) fun _ => P)
    (hneeds : L.triple P (do
      Traced.tell [.called f.program (f.options ++ ["-d", path])]
      (f.toFormatter programs).needsFormat path) fun _ => P)
    (hwrite : L.triple P (do
      Traced.tell [.called f.program (f.options ++ ["-w", path])]
      (f.toFormatter programs).write path) fun _ => P) :
    (f.format programs checkOnly path).Passes L P fun _ => True := by
  have hattempt {α : Type} {mode : String} {x : StateM FileTree α}
      (hx : L.triple P (do Traced.tell [.called f.program (f.options ++ [mode, path])]; x) fun _ =>
        P) :
      (f.attempt mode path x).Passes L P fun _ => True := by
    refine Job.Passes.bind (.once (L.imp (hsay _) fun _ _ hw => ⟨trivial, hw⟩)) fun _ _ => ?_
    exact .once (L.imp hx fun _ _ hw => ⟨trivial, hw⟩)
  unfold format Formatter.formatWith
  refine (hattempt hneeds).bind fun answer _ => ?_
  match answer with
  | .ok false => exact .pure trivial
  | .error e => exact .pure trivial
  | .ok true =>
    cases checkOnly with
    | true => exact .pure trivial
    | false =>
      refine (hattempt hwrite).bind fun written _ => ?_
      match written with
      | .ok () => exact .pure trivial
      | .error e => exact .pure trivial

/-! ## From the steps of the workers to the calls -/

/-- What a file comes to that has been written, or could not be. -/
def writtenOutcome : Except IoError Unit → Outcome
  | .ok () => .formatted
  | .error e => .failed e.message

/-- What is left to do for a file when the program has answered about it. -/
def answered (f : FormatterProgram) (programs : Programs) (checkOnly : Bool) (path : String) :
    Except IoError Bool → Job Outcome
  | .ok false => .done .unchanged
  | .ok true =>
    if checkOnly then .done .needsFormat
    else f.attempt "-w" path ((f.toFormatter programs).write path) >>= fun answer =>
      .done (writtenOutcome answer)
  | .error e => .done (.failed e.message)

theorem format_eq (f : FormatterProgram) (programs : Programs) (checkOnly : Bool) (path : String) :
    f.format programs checkOnly path =
      f.attempt "-d" path ((f.toFormatter programs).needsFormat path) >>=
        f.answered programs checkOnly path := by
  have hwritten : (fun answer : Except IoError Unit => match answer with
      | .ok () => (pure .formatted : Job Outcome)
      | .error e => pure (.failed e.message)) = fun answer => .done (writtenOutcome answer) := by
    funext answer
    match answer with
    | .ok () => rfl
    | .error e => rfl
  unfold format Formatter.formatWith
  refine congrArg (Bind.bind _) (funext fun answer => ?_)
  match answer with
  | .ok false => rfl
  | .error e => rfl
  | .ok true =>
    cases checkOnly with
    | true => rfl
    | false => exact congrArg (Bind.bind _) hwritten

/-- Where a worker stands with a file, and what is left to do. A call is told about before it is
made. -/
inductive Stage (f : FormatterProgram) (programs : Programs) (checkOnly : Bool) :
    Task → Job Outcome → Prop
  | asking {path : String} : Stage f programs checkOnly (.asking path)
    (f.format programs checkOnly path)
  | asks {path : String} : Stage f programs checkOnly (.asking path)
      (.once (do
        Traced.tell [.called f.program (f.options ++ ["-d", path])]
        (f.toFormatter programs).needsFormat path) >>= f.answered programs checkOnly path)
  | writing {path : String} : Stage f programs checkOnly (.writing path)
      (f.attempt "-w" path ((f.toFormatter programs).write path) >>= fun answer =>
        .done (writtenOutcome answer))
  | writes {path : String} : Stage f programs checkOnly (.writing path)
      (.once (do
        Traced.tell [.called f.program (f.options ++ ["-w", path])]
        (f.toFormatter programs).write path) >>= fun answer => .done (writtenOutcome answer))
  | done {path : String} {outcome : Outcome} : Stage f programs checkOnly (.done path outcome)
    (.done outcome)

/-- The step lemma: a worker's step makes one call, or none and it stands where it stood. -/
theorem Stage.advance {task : Task} {job : Job Outcome} (h : Stage f programs checkOnly task job)
    (t : FileTree) :
    let next := job.advance.runOn t
    let calls := (job.advance.eventsOn t).filterMap Event.call?
    (calls = [] ∧ next.2 = t ∧ Stage f programs checkOnly task next.1) ∨
    ∃ call task', calls = [f.commandLine call] ∧
      (f.toFormatter programs).Works checkOnly task t call task' next.2 ∧
      Stage f programs checkOnly task' next.1 := by
  cases h with
  | asking =>
    rw [format_eq]
    exact .inl ⟨rfl, rfl, .asks⟩
  | writing => exact .inl ⟨rfl, rfl, .writes⟩
  | done => exact .inl ⟨rfl, rfl, .done⟩
  | @asks path =>
    right
    have hnext : ((Job.once (do
          Traced.tell [.called f.program (f.options ++ ["-d", path])]
          (f.toFormatter programs).needsFormat path)) >>=
            f.answered programs checkOnly path).advance.runOn t =
        (f.answered programs checkOnly path (((f.toFormatter programs).needsFormat path).run t).1,
          (((f.toFormatter programs).needsFormat path).run t).2) := rfl
    rw [hnext]
    rcases hn : ((f.toFormatter programs).needsFormat path).run t with ⟨e | _ | _, t'⟩
    · exact ⟨.asked path (.error e), .done path (.failed e.message), rfl, .rejected hn, .done⟩
    · exact ⟨.asked path (.ok false), .done path .unchanged, rfl, .clean hn, .done⟩
    · cases checkOnly with
      | true => exact ⟨.asked path (.ok true), .done path .needsFormat, rfl, .differs hn rfl, .done⟩
      | false => exact ⟨.asked path (.ok true), .writing path, rfl, .begins hn rfl, .writing⟩
  | @writes path =>
    right
    have hnext : ((Job.once (do
          Traced.tell [.called f.program (f.options ++ ["-w", path])]
          (f.toFormatter programs).write path)) >>= fun answer =>
            .done (writtenOutcome answer)).advance.runOn t =
        (.done (writtenOutcome (((f.toFormatter programs).write path).run t).1),
          (((f.toFormatter programs).write path).run t).2) := rfl
    rw [hnext]
    rcases hw : ((f.toFormatter programs).write path).run t with ⟨e | _, t'⟩
    · exact ⟨.wrote path (.error e), .done path (.failed e.message), rfl, .stuck hw, .done⟩
    · exact ⟨.wrote path (.ok ()), .done path .formatted, rfl, .written hw, .done⟩

/-- The calls so far make up what has happened, and the workers stand where the calls have brought
them. -/
def Reached (f : FormatterProgram) (programs : Programs) (checkOnly : Bool) (paths : List String)
    (t : FileTree) (jobs : List (Job Outcome)) (w : List Event × FileTree) : Prop :=
  ∃ calls tasks, w.1.filterMap Event.call? = calls.map f.commandLine ∧
    (f.toFormatter programs).Runs checkOnly (paths.map .asking) t calls tasks w.2 ∧
    List.Forall₂ (Stage f programs checkOnly) tasks jobs

theorem keeps_reached (f : FormatterProgram) (programs : Programs) (checkOnly : Bool)
    (paths : List String)
    (t : FileTree) : Logic.ofRun.Keeps (Reached f programs checkOnly paths t) := by
  rintro before job after es t' ⟨calls, tasks, hcalls, hruns, hstages⟩
  obtain ⟨tbefore, task, tafter, rfl, hstage, hothers⟩ := forall₂_append_cons hstages
  rcases hstage.advance t' with ⟨hnone, htree, hstage'⟩ | ⟨call, task', hcall, hworks, hstage'⟩
  · refine ⟨calls, _, ?_, ?_, hothers _ _ hstage'⟩
    · rw [List.filterMap_append, hnone, List.append_nil, hcalls]
    · rw [htree]
      exact hruns
  · refine ⟨calls ++ [call], _, ?_, hruns.next _ _ hworks, hothers _ _ hstage'⟩
    rw [List.filterMap_append, hcall, hcalls, List.map_append]
    rfl

/-- Where all workers have ended, the tasks are done. -/
theorem eq_map_ofOutcome {tasks : List Task} {outcomes : List Outcome}
    (h : List.Forall₂ (Stage f programs checkOnly) tasks (outcomes.map .done)) :
    tasks = ((tasks.map Task.path).zip outcomes).map .ofOutcome := by
  induction outcomes generalizing tasks with
  | nil =>
    cases h
    rfl
  | cons outcome outcomes ih =>
    cases h with
    | cons hstage hrest =>
      cases hstage with
      | done =>
        rw [List.map_cons, List.zip_cons_cons, List.map_cons, ← ih hrest]
        rfl

end FormatterProgram

/-- Whatever turns the workers take, the program is called as it is when files are formatted with
the calls in some order, and the trace has these calls. -/
theorem formats_formatPaths (host : Host) (f : FormatterProgram) (checkOnly : Bool)
    (paths : List String) (t : FileTree) :
    let ran := (formatPaths host f checkOnly paths).runOn t
    ∃ calls, (f.toFormatter host.programs).Formats checkOnly paths t calls ran.1 ran.2 ∧
      ((formatPaths host f checkOnly paths).eventsOn t).filterMap Event.call? =
        calls.map f.commandLine := by
  intro ran
  have hstart : f.Reached host.programs checkOnly paths t
      (paths.map (f.format host.programs checkOnly)) ([], t) := by
    refine ⟨[], _, rfl, .start, ?_⟩
    rw [List.forall₂_map_left_iff, List.forall₂_map_right_iff, List.forall₂_same]
    exact fun path _ => .asking
  obtain ⟨calls, tasks, hcalls, hruns, hstages⟩ :=
    (f.keeps_reached host.programs checkOnly paths t).work host.workers host.turns _ [] t hstart
  refine ⟨calls, ?_, ?_⟩
  · have htasks := FormatterProgram.eq_map_ofOutcome hstages
    rw [hruns.accounts.paths] at htasks
    rw [htasks] at hruns
    exact hruns
  · have hevents : (formatPaths host f checkOnly paths).eventsOn t =
        (work host.workers host.turns (paths.map (f.format host.programs checkOnly))).eventsOn t :=
      List.append_nil _
    rw [hevents]
    exact hcalls

end ScriptLint
