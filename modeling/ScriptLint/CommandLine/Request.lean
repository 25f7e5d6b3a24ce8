import ScriptLint.Report.Format

/-!
Requests: what a command line asks for.
-/

namespace ScriptLint

structure CheckRequest where
  /-- The file or directory to check. -/
  path : String := "."
  types : Option (List String) := none
  recursive : Bool := false
  exclude : List String := []
  format : ReportFormat := .text
  /-- The file that takes the report. -/
  output : Option String := none
  noSyntax : Bool := false
  shell : Option String := none
  /-- The number of workers. -/
  jobs : Option Nat := none
  deriving DecidableEq, Repr

structure FmtRequest where
  /-- The file or directory to format. -/
  path : String := "."
  types : Option (List String) := none
  recursive : Bool := false
  exclude : List String := []
  checkOnly : Bool := false
  /-- The formatter to run. -/
  program : Option String := none
  deriving DecidableEq, Repr

structure InitRequest where
  /-- The configuration file to write. -/
  output : String := ".shell-guard.toml"
  /-- An existing file is overwritten. -/
  force : Bool := false
  deriving DecidableEq, Repr

inductive Command where
  | check (request : CheckRequest)
  | fmt (request : FmtRequest)
  | init (request : InitRequest)
  | checks
  deriving DecidableEq, Repr

structure Request where
  verbose : Nat := 0
  quiet : Bool := false
  color : ColorMode := .auto
  /-- The configuration file to use. -/
  config : Option String := none
  noConfig : Bool := false
  command : Command
  deriving DecidableEq, Repr

end ScriptLint
