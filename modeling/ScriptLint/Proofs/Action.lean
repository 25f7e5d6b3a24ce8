import ScriptLint.Action

/-!
Running actions on files. Main statement: `Action.runOn_bind`, a step after which the action goes on
from the files that the step leaves, or ends with the step's failure.
-/

namespace ScriptLint.Action

/-- What an action gives, and the files that it leaves. -/
def runOn {α : Type} (x : Action α) (t : FileTree) : Except Failure α × FileTree :=
  StateT.run (ExceptT.run x) t

variable {α β : Type}

@[simp] theorem runOn_pure (a : α) (t : FileTree) : runOn (pure a) t = (.ok a, t) := rfl

@[simp] theorem runOn_throw (f : Failure) (t : FileTree) :
    runOn (throw f : Action α) t = (.error f, t) := rfl

@[simp] theorem runOn_get (t : FileTree) : runOn get t = (.ok t, t) := rfl

@[simp] theorem runOn_set (new t : FileTree) : runOn (set new) t = (.ok (), new) := rfl

@[simp] theorem runOn_ofExcept (x : Except Failure α) (t : FileTree) :
    runOn (ofExcept x) t = (x, t) := rfl

/-- A step without failures. -/
@[simp] theorem runOn_liftM (x : StateM FileTree α) (t : FileTree) :
    runOn (liftM x : Action α) t = (.ok (x.run t).1, (x.run t).2) := rfl

theorem runOn_orFail {ε : Type} (x : StateM FileTree (Except ε α)) (failure : ε → Failure)
    (t : FileTree) :
    runOn (orFail x failure) t =
      match x.run t with
      | (.ok a, t') => (.ok a, t')
      | (.error e, t') => (.error (failure e), t') := by
  simp only [runOn, orFail, ExceptT.run_mk, StateT.run_bind]
  rcases StateT.run x t with ⟨e | a, t'⟩
  · rfl
  · rfl

theorem runOn_bind (x : Action α) (next : α → Action β) (t : FileTree) :
    runOn (x >>= next) t =
      match runOn x t with
      | (.ok a, t') => runOn (next a) t'
      | (.error f, t') => (.error f, t') := by
  simp only [runOn, ExceptT.run_bind, StateT.run_bind]
  rcases StateT.run (ExceptT.run x) t with ⟨a | f, t'⟩
  · rfl
  · rfl

theorem runOn_bind_of_ok {x : Action α} {next : α → Action β} {t t' : FileTree} {a : α}
    (h : runOn x t = (.ok a, t')) : runOn (x >>= next) t = runOn (next a) t' := by
  rw [runOn_bind, h]

theorem runOn_bind_of_error {x : Action α} {next : α → Action β} {t t' : FileTree} {f : Failure}
    (h : runOn x t = (.error f, t')) : runOn (x >>= next) t = (.error f, t') := by
  rw [runOn_bind, h]

end ScriptLint.Action
