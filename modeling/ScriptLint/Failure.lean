import ScriptLint.Config.Decode
import ScriptLint.ExitCode
import ScriptLint.Glob.Basic
import ScriptLint.IoError

/-!
Failures: why a run stops before its report, in words for the user.
-/

namespace ScriptLint

inductive Failure where
  | pathNotFound (path : String)
  | noFilesMatched (extensions : List String)
  | validatorUnavailable (program : String) (cause : IoError)
  | formatterUnavailable (program : String)
  /-- Something is wrong with the configuration, as the problem says. -/
  | config (problem : String)
  /-- The configuration file could not be decoded. -/
  | document (cause : DocumentError)
  | fileRead (path : String) (cause : IoError)
  | invalidPattern (cause : Glob.Error)
  | io (cause : IoError)
  deriving DecidableEq, Repr

namespace Failure

/-- The headline of a failure. -/
def title : Failure → String
  | pathNotFound _ => "PathNotFound"
  | noFilesMatched _ => "NoFilesMatched"
  | validatorUnavailable .. => "ValidatorUnavailable"
  | formatterUnavailable _ => "FormatterUnavailable"
  | config _ => "Config"
  | document _ => "TomlParse"
  | fileRead .. => "FileRead"
  | invalidPattern _ => "InvalidPattern"
  | io _ => "IO"

def message : Failure → String
  | pathNotFound path => "Path not found: " ++ path
  | noFilesMatched extensions =>
    "No files found matching types: " ++ String.intercalate ", " extensions
  | validatorUnavailable program _ => "Syntax validator '" ++ program ++ "' is not available"
  | formatterUnavailable program => "Formatter '" ++ program ++ "' is not available"
  | config problem => "Configuration error: " ++ problem
  | document cause => "TOML parse error: " ++ cause.message
  | fileRead path _ => "Failed to read file: " ++ path
  | invalidPattern cause => "Invalid glob pattern: " ++ cause.pattern
  | io cause => "IO error: " ++ cause.message

/-- What the cause says beyond the message. -/
def detail : Failure → Option String
  | validatorUnavailable _ cause => some cause.message
  | fileRead _ cause => some cause.message
  | invalidPattern cause => some cause.message
  | _ => none

/-- What the user may do about it. -/
def suggestion : Failure → Option String
  | pathNotFound _ => some "Check the --path argument"
  | noFilesMatched _ =>
    some "Check the path and the --types filter, or pass --recursive to search subdirectories"
  | validatorUnavailable program _ =>
    some ("Install '" ++ program ++ "', pass --shell to choose another shell, or use --no-syntax")
  | formatterUnavailable program =>
    some ("Install " ++ program ++ ": `go install mvdan.cc/sh/v3/cmd/shfmt@latest`, " ++
      "`brew install shfmt`, `apt install shfmt` or `pacman -S shfmt`")
  | config _ => some "Check the configuration file syntax"
  | document _ => some "Check the configuration file syntax"
  | fileRead _ cause =>
    match cause.kind with
    | .notFound => some "Check that the file exists"
    | .permissionDenied => some "Check file permissions"
    | .invalidData | .other => none
  | invalidPattern _ => some "Check the glob syntax (e.g. `**/vendor/**`)"
  | io _ => none

/-- The files failed, rather than the run. -/
def isCheckFailure : Failure → Bool
  | pathNotFound _ => true
  | noFilesMatched _ => true
  | _ => false

def exitCode (f : Failure) : ExitCode :=
  if f.isCheckFailure then .checkFailed else .notRun

end Failure

end ScriptLint
