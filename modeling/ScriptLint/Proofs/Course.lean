import ScriptLint.Course
import ScriptLint.Proofs.Action

/-!
Running courses on files. What a course gives and leaves does not depend on what has been logged
before, so its result (`runOn`) and its trace (`eventsOn`) are two separate things. Main statements:
`Course.runOn_bind` and `Course.eventsOn_bind`, what comes of steps one after the other.
-/

namespace ScriptLint

variable {α β : Type}

namespace Traced

instance : LawfulMonad Traced :=
  LawfulMonad.mk' Traced
    (fun x => by
      funext t
      show ((((x t).1.1, (x t).1.2 ++ []), (x t).2) : (_ × List Event) × FileTree) = x t
      rw [List.append_nil])
    (fun _ _ => rfl)
    (fun x f g => by
      funext t
      show (((_, ((x t).1.2 ++ _) ++ _), _) : (_ × List Event) × FileTree) =
        ((_, (x t).1.2 ++ (_ ++ _)), _)
      rw [List.append_assoc])

/-- What a step gives, and the files that it leaves. -/
def runOn (x : Traced α) (t : FileTree) : α × FileTree :=
  ((x t).1.1, (x t).2)

/-- What a step leaves in the trace. -/
def eventsOn (x : Traced α) (t : FileTree) : List Event :=
  (x t).1.2

@[simp] theorem runOn_pure (a : α) (t : FileTree) : runOn (pure a) t = (a, t) := rfl

@[simp] theorem eventsOn_pure (a : α) (t : FileTree) : eventsOn (pure a) t = [] := rfl

@[simp] theorem runOn_get (t : FileTree) : runOn get t = (t, t) := rfl

@[simp] theorem eventsOn_get (t : FileTree) : eventsOn get t = [] := rfl

@[simp] theorem runOn_tell (events : List Event) (t : FileTree) :
    runOn (tell events) t = ((), t) := rfl

@[simp] theorem eventsOn_tell (events : List Event) (t : FileTree) :
    eventsOn (tell events) t = events := rfl

@[simp] theorem runOn_say (entries : List LogEntry) (t : FileTree) :
    runOn (say entries) t = ((), t) := rfl

@[simp] theorem eventsOn_say (entries : List LogEntry) (t : FileTree) :
    eventsOn (say entries) t = entries.map .logged := rfl

@[simp] theorem runOn_liftM (x : StateM FileTree α) (t : FileTree) :
    runOn (liftM x : Traced α) t = x.run t := rfl

@[simp] theorem eventsOn_liftM (x : StateM FileTree α) (t : FileTree) :
    eventsOn (liftM x : Traced α) t = [] := rfl

/-- A step that only looks at the files. -/
@[simp] theorem runOn_look (f : FileTree → α) (t : FileTree) :
    runOn (do return f (← get) : Traced α) t = (f t, t) := rfl

@[simp] theorem eventsOn_look (f : FileTree → α) (t : FileTree) :
    eventsOn (do return f (← get) : Traced α) t = [] := rfl

/-- A step that is told about. -/
@[simp] theorem runOn_told (events : List Event) (x : StateM FileTree α) (t : FileTree) :
    runOn (do tell events; x : Traced α) t = x.run t := rfl

@[simp] theorem eventsOn_told (events : List Event) (x : StateM FileTree α) (t : FileTree) :
    eventsOn (do tell events; x : Traced α) t = events :=
  List.append_nil events

theorem runOn_bind (x : Traced α) (next : α → Traced β) (t : FileTree) :
    runOn (x >>= next) t = runOn (next (x.runOn t).1) (x.runOn t).2 := rfl

theorem eventsOn_bind (x : Traced α) (next : α → Traced β) (t : FileTree) :
    eventsOn (x >>= next) t = x.eventsOn t ++ (next (x.runOn t).1).eventsOn (x.runOn t).2 := rfl

theorem runOn_mapM {f : α → Traced β} {g : α → StateM FileTree β}
    (h : ∀ a t, (f a).runOn t = (g a).run t)
    (l : List α) (t : FileTree) : (l.mapM f).runOn t = (l.mapM g).run t := by
  induction l generalizing t with
  | nil => rfl
  | cons a l ih =>
    rw [List.mapM_cons, List.mapM_cons, runOn_bind, runOn_bind, h, ih]
    rfl

end Traced

namespace Course

/-- What a course gives, and the files that it leaves. -/
def runOn (x : Course α) (t : FileTree) : Except Failure α × FileTree :=
  Traced.runOn (ExceptT.run x) t

/-- What a course leaves in the trace. -/
def eventsOn (x : Course α) (t : FileTree) : List Event :=
  Traced.eventsOn (ExceptT.run x) t

@[simp] theorem runOn_pure (a : α) (t : FileTree) : runOn (pure a) t = (.ok a, t) := rfl

@[simp] theorem eventsOn_pure (a : α) (t : FileTree) : eventsOn (pure a) t = [] := rfl

@[simp] theorem runOn_get (t : FileTree) : runOn get t = (.ok t, t) := rfl

@[simp] theorem eventsOn_get (t : FileTree) : eventsOn get t = [] := rfl

/-- A step without failures. -/
@[simp] theorem runOn_traced (x : Traced α) (t : FileTree) :
    runOn (liftM x : Course α) t = (.ok (x.runOn t).1, (x.runOn t).2) := rfl

@[simp] theorem eventsOn_traced (x : Traced α) (t : FileTree) :
    eventsOn (liftM x : Course α) t = x.eventsOn t := by
  show x.eventsOn t ++ [] = x.eventsOn t
  rw [List.append_nil]

@[simp] theorem runOn_action (x : Action α) (t : FileTree) :
    runOn (liftM x : Course α) t = x.runOn t := rfl

@[simp] theorem eventsOn_action (x : Action α) (t : FileTree) :
    eventsOn (liftM x : Course α) t = [] := rfl

theorem runOn_bind (x : Course α) (next : α → Course β) (t : FileTree) :
    runOn (x >>= next) t =
      match runOn x t with
      | (.ok a, t') => runOn (next a) t'
      | (.error f, t') => (.error f, t') := by
  simp only [runOn, ExceptT.run_bind, Traced.runOn_bind]
  rcases Traced.runOn (ExceptT.run x) t with ⟨a | f, t'⟩
  · rfl
  · rfl

theorem eventsOn_bind (x : Course α) (next : α → Course β) (t : FileTree) :
    eventsOn (x >>= next) t = eventsOn x t ++
      match runOn x t with
      | (.ok a, t') => eventsOn (next a) t'
      | (.error _, _) => [] := by
  simp only [eventsOn, runOn, ExceptT.run_bind, Traced.eventsOn_bind]
  rcases Traced.runOn (ExceptT.run x) t with ⟨a | f, t'⟩
  · rfl
  · rfl

/-- The second steps have to agree on what the first one gives only. -/
theorem bind_congr_on {x : Course α} {next next' : α → Course β} {t : FileTree}
    (h : ∀ a t', runOn x t = (.ok a, t') → ExceptT.run (next a) t' = ExceptT.run (next' a) t') :
    ExceptT.run (x >>= next) t = ExceptT.run (x >>= next') t := by
  have hrun (next : α → Course β) : ExceptT.run (x >>= next) t =
      (((runOn (x >>= next) t).1, eventsOn (x >>= next) t), (runOn (x >>= next) t).2) := rfl
  rw [hrun, hrun]
  simp only [runOn_bind, eventsOn_bind]
  rcases hx : runOn x t with ⟨f | a, t'⟩
  · rfl
  · have hnext := h a t' hx
    simp only [runOn, eventsOn, Traced.runOn, Traced.eventsOn, hnext]

end Course

end ScriptLint
