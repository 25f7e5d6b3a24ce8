import ScriptLint.Failure
import ScriptLint.Glob.Parser
import ScriptLint.Text.Blank

/-!
Settings that a run could not use: the first one is refused.
-/

namespace ScriptLint

/-- What is wrong with a setting. -/
inductive ConfigProblem where
  | unknownCheck (name : String)
  | emptyColorCode (color : String)
  | blankSetting (key : String)
  deriving DecidableEq, Repr

def ConfigProblem.message : ConfigProblem → String
  | unknownCheck name =>
    "unknown check '" ++ name ++ "' in checks.disabled (run `shell-guard checks` for the list)"
  | emptyColorCode color => "palette color '" ++ color ++ "' has an empty code"
  | blankSetting key => key ++ " must not be empty"

def isBlankText (text : String) : Bool :=
  (trim text.toList).isEmpty

namespace Config

def refuse (problem : ConfigProblem) : Except Failure Unit :=
  .error (.config problem.message)

/-- The disabled checks exist. -/
def validateChecks (disabled : List String) : Except Failure Unit :=
  match disabled.find? fun name => (Check.named? name).isNone with
  | some name => refuse (.unknownCheck name)
  | none => .ok ()

/-- The patterns are well formed. -/
def validatePatterns (patterns : List String) : Except Failure Unit :=
  patterns.forM fun pattern =>
    match Glob.ofPattern pattern with
    | .ok _ => .ok ()
    | .error e => .error (.invalidPattern e)

/-- The colors have codes. -/
def validatePalette (palette : Palette) : Except Failure Unit :=
  match palette.entries.find? fun color => isBlankText color.2 with
  | some (name, _) => refuse (.emptyColorCode name)
  | none => .ok ()

def validateText (key value : String) : Except Failure Unit :=
  if isBlankText value then refuse (.blankSetting key) else .ok ()

def validate (c : Config) : Except Failure Unit := do
  validateChecks c.checks.disabled
  validatePatterns c.scan.exclude
  validatePalette c.palette
  validateText "syntax.shell" c.syntaxCheck.shell
  validateText "style.env_file" c.style.envFile
  validateText "style.python_env_marker" c.style.pythonMarker

end Config

end ScriptLint
