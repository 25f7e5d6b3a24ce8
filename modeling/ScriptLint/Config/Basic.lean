import ScriptLint.Check.Settings

/-!
The configuration: what every run starts from, before the command line.
-/

namespace ScriptLint

/-- Which files a check run picks up. -/
structure ScanConfig where
  extensions : List String := ["sh", "py"]
  recursive : Bool := false
  /-- Patterns for paths that a directory scan leaves out. -/
  exclude : List String := []
  deriving DecidableEq, Repr

/-- Which checks run. -/
structure ChecksConfig where
  disabled : List String := []
  deriving DecidableEq, Repr

/-- Whether a shell checks the syntax of shell scripts, and which one. -/
structure SyntaxConfig where
  enabled : Bool := true
  shell : String := "bash"
  deriving DecidableEq, Repr

/-- The texts that scripts have to mention. -/
structure StyleConfig where
  envFile : String := defaultEnvFile
  pythonMarker : String := defaultPythonMarker
  deriving DecidableEq, Repr

/-- The formatter, and which files a format run picks up. -/
structure FormatConfig where
  program : String := "shfmt"
  options : List String := ["-i", "4", "-bn", "-ci", "-sr"]
  extensions : List String := ["sh"]
  deriving DecidableEq, Repr

structure Config where
  scan : ScanConfig := {}
  checks : ChecksConfig := {}
  syntaxCheck : SyntaxConfig := {}
  style : StyleConfig := {}
  /-- Without colors, the standard palette counts. -/
  palette : Palette := .empty
  format : FormatConfig := {}

/-- Whether a configuration is the one that counts without any file. -/
def Config.isDefault (c : Config) : Bool :=
  c.scan == {} && c.checks == {} && c.syntaxCheck == {} && c.style == {} && c.palette.isEmpty &&
    c.format == {}

end ScriptLint
