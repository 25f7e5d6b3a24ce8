import ScriptLint.Check.Basic
import ScriptLint.IoError
import ScriptLint.Palette

/-!
Settings: what the checks compare a script with, and which checks run.
-/

namespace ScriptLint

/-- The answer of a syntax validator about a file. -/
inductive Validation where
  | valid
  /-- The file does not parse; the validator's own words may be empty. -/
  | invalid (diagnostic : String)
  deriving DecidableEq, Repr

/-- Gives the answer about the file at a path, or the reason why there is none. -/
abbrev Validator := String → Except IoError Validation

/-- The environment file that shell scripts mention, unless a configuration names another one. -/
def defaultEnvFile : String := ".sys/env/.env"

/-- The function that Python scripts mention, unless a configuration names another one. -/
def defaultPythonMarker : String := "load_env"

structure Settings where
  palette : Palette := .standard
  /-- The environment file that shell scripts mention. -/
  envFile : String := defaultEnvFile
  /-- The function that Python scripts mention. -/
  pythonMarker : String := defaultPythonMarker
  validator : Option Validator := none
  /-- Names of checks that do not run. -/
  disabled : List String := []

namespace Settings

/-- The syntax check needs a validator; every other check runs unless it is disabled. -/
def enables (settings : Settings) (check : Check) : Bool :=
  (check != .shellSyntax || settings.validator.isSome) && !settings.disabled.contains check.name

def checks (settings : Settings) : List Check :=
  Check.all.filter settings.enables

def checksFor (settings : Settings) (extension : String) : List Check :=
  settings.checks.filter (·.appliesTo extension)

end Settings

end ScriptLint
