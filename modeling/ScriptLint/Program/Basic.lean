import ScriptLint.Decimal.Natural
import ScriptLint.FileTree.Resolve

/-!
External programs: what a run of one gives back. Programs may change files.
-/

namespace ScriptLint

inductive ExitStatus where
  | code (n : Nat)
  | signal (n : Nat)
  deriving DecidableEq, Repr

namespace ExitStatus

def isSuccess (s : ExitStatus) : Bool :=
  s == .code 0

/-- The names of the signals from number one on. -/
def signalNames : List String :=
  ["SIGHUP", "SIGINT", "SIGQUIT", "SIGILL", "SIGTRAP", "SIGABRT", "SIGBUS", "SIGFPE", "SIGKILL",
    "SIGUSR1", "SIGSEGV", "SIGUSR2", "SIGPIPE", "SIGALRM", "SIGTERM", "SIGSTKFLT", "SIGCHLD",
    "SIGCONT", "SIGSTOP", "SIGTSTP", "SIGTTIN", "SIGTTOU", "SIGURG", "SIGXCPU", "SIGXFSZ",
    "SIGVTALRM", "SIGPROF", "SIGWINCH", "SIGIO", "SIGPWR", "SIGSYS"]

def description : ExitStatus → String
  | code n => "exit status: " ++ decimalText n
  | signal n =>
    match (n, signalNames[n - 1]?) with
    | (_ + 1, some name) => "signal: " ++ decimalText n ++ " (" ++ name ++ ")"
    | _ => "signal: " ++ decimalText n

end ExitStatus

structure ProgramOutput where
  status : ExitStatus
  stdout : ByteArray := .empty
  stderr : ByteArray := .empty

/-- The programs of a host. Running one by its name with arguments may fail, and may change the
files. -/
abbrev Programs := (program : String) → (args : List String) →
  StateM FileTree (Except IoError ProgramOutput)

def noPrograms : Programs := fun _ _ => pure (.error .notFound)

end ScriptLint
