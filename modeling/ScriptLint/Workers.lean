import ScriptLint.Trace

/-!
Workers: several of them take turns at the files of a run. The work on a file is a sequence of
steps, and between two of its steps other workers may change the files.
-/

namespace ScriptLint

/-- The work on a file: it is done, or its next step changes the files, leaves events and goes on,
each in a way that depends on the files as they are at that moment. -/
inductive Job (ρ : Type) where
  | done (result : ρ)
  | step (change : FileTree → FileTree) (events : FileTree → List Event) (rest : FileTree → Job ρ)

namespace Job

variable {ρ ρ' : Type}

def once (x : Traced ρ) : Job ρ :=
  .step (fun t => (x t).2) (fun t => (x t).1.2) fun t => .done (x t).1.1

protected def bind : Job ρ → (ρ → Job ρ') → Job ρ'
  | done result, next => next result
  | step change events rest, next => step change events fun t => (rest t).bind next

instance : Monad Job where
  pure := done
  bind := Job.bind

def isDone : Job ρ → Bool
  | done _ => true
  | step .. => false

def advance : Job ρ → Traced (Job ρ)
  | done result => pure (done result)
  | step change events rest => fun t => ((rest t, events t), change t)

/-- Takes all steps, one after the other. -/
def finish : Job ρ → Traced ρ
  | done result => pure result
  | step change events rest => fun t =>
    let ((result, after), t') := (rest t).finish (change t)
    ((result, events t ++ after), t')

end Job

/-- A file in the hands of the workers, or one that still waits. -/
structure Piece (ρ : Type) where
  job : Job ρ
  begun : Bool := false

namespace Piece

variable {ρ : Type}

/-- A worker is at it. -/
def busy (p : Piece ρ) : Bool :=
  p.begun && !p.job.isDone

def advance (p : Piece ρ) : Traced (Piece ρ) := do
  return { job := ← p.job.advance, begun := true }

/-- Takes all steps of a piece that a worker has begun. -/
def settle (p : Piece ρ) : Traced (Piece ρ) := do
  if p.begun then return { p with job := .done (← p.job.finish) } else return p

end Piece

/-- One turn: the worker at the piece with a number takes its next step. A piece that waits is begun
only if a worker is free. -/
def takeTurn {ρ : Type} (workers : Nat) (pieces : List (Piece ρ)) (number : Nat) :
    Traced (List (Piece ρ)) := do
  match pieces[number]? with
  | none => return pieces
  | some p =>
    if !p.begun && workers ≤ pieces.countP Piece.busy then return pieces
    else return pieces.set number (← p.advance)

/-- Does all jobs, and gives their results in the order of the jobs. Several workers take the given
turns, then finish what they have begun, and then the rest. A single one does job after job. -/
def work {ρ : Type} (workers : Nat) (turns : List Nat) (jobs : List (Job ρ)) : Traced (List ρ) := do
  let turns := if workers ≤ 1 then [] else turns
  let pieces ← turns.foldlM (takeTurn workers) (jobs.map fun job => { job })
  let pieces ← pieces.mapM Piece.settle
  pieces.mapM (·.job.finish)

end ScriptLint
