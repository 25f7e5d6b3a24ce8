/-!
How much a run says about itself.
-/

namespace ScriptLint

inductive LogLevel where
  | error
  | warn
  | info
  | debug
  | trace
  deriving DecidableEq, Repr

namespace LogLevel

/-- A quiet run logs errors only; every step of verbosity adds a level until there is no other. -/
def ofVerbosity (verbose : Nat) (quiet : Bool) : LogLevel :=
  if quiet then error
  else match verbose with
    | 0 => warn
    | 1 => info
    | 2 => debug
    | _ => trace

def name : LogLevel → String
  | error => "error"
  | warn => "warn"
  | info => "info"
  | debug => "debug"
  | trace => "trace"

/-- How far down a level is: an error counts least. -/
def depth : LogLevel → Nat
  | error => 0
  | warn => 1
  | info => 2
  | debug => 3
  | trace => 4

/-- A run at a level shows what is logged at this level or above it. -/
def shows (limit level : LogLevel) : Bool :=
  level.depth ≤ limit.depth

end LogLevel

end ScriptLint
