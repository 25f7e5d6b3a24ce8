import ScriptLint.FileTree.Basic
import ScriptLint.Verbosity

/-!
Traces: what a step of a run logs, and which programs it runs, in the order in which this happens.
-/

namespace ScriptLint

/-- A line of the log, without the time at which it is written. -/
structure LogEntry where
  level : LogLevel
  message : String
  fields : List (String × String) := []
  deriving DecidableEq, Repr

/-- The line as a user reads it. -/
def LogEntry.text (e : LogEntry) : String :=
  e.level.name ++ " " ++ e.message ++
    String.join (e.fields.map fun (key, value) => " " ++ key ++ "=" ++ value)

inductive Event where
  | logged (entry : LogEntry)
  | called (program : String) (args : List String)
  deriving DecidableEq, Repr

namespace Event

def entry? : Event → Option LogEntry
  | logged entry => some entry
  | called .. => none

end Event

/-- A step that may change the files and leaves a trace. -/
def Traced (α : Type) : Type :=
  FileTree → (α × List Event) × FileTree

namespace Traced

variable {α β : Type}

protected def pure (a : α) : Traced α := fun t => ((a, []), t)

/-- One step after the other, and so with their traces. -/
protected def bind (x : Traced α) (next : α → Traced β) : Traced β := fun t =>
  let ((a, before), t) := x t
  let ((b, after), t) := next a t
  ((b, before ++ after), t)

instance : Monad Traced where
  pure := Traced.pure
  bind := Traced.bind

instance : MonadStateOf FileTree Traced where
  get t := ((t, []), t)
  set t _ := (((), []), t)
  modifyGet f t := (((f t).1, []), (f t).2)

def silent (x : StateM FileTree α) : Traced α := fun t =>
  let (a, t) := x.run t
  ((a, []), t)

instance : MonadLift (StateM FileTree) Traced where
  monadLift := silent

def tell (events : List Event) : Traced Unit := fun t => (((), events), t)

def say (entries : List LogEntry) : Traced Unit :=
  tell (entries.map .logged)

end Traced

end ScriptLint
