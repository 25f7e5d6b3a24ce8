import ScriptLint.Config.Validate
import ScriptLint.Path

/-!
Where a configuration comes from: the file of the project, else the file of the user, else none.
-/

namespace ScriptLint

/-- The files among which configurations are looked up. -/
structure ConfigFiles where
  /-- The text of the file at a path. -/
  read : String → Except IoError String
  isFile : String → Bool
  /-- The directory of the project, if it is known. -/
  projectDir : Option String
  /-- The directory of the user's own configuration, if there is one. -/
  userDir : Option String

/-- A configuration and the file that it was read from. -/
structure LoadedConfig where
  config : Config := {}
  source : Option String := none

namespace Config

def projectFileName : String := ".shell-guard.toml"

def userFileName : String := "config.toml"

/-- The configuration that a text gives, if a run can use it. -/
def parse (text : String) : Except Failure Config := do
  let config ← match ofText text with
    | .ok config => .ok config
    | .error e => .error (.document e)
  config.validate
  return config

def loadFrom (files : ConfigFiles) (path : String) : Except Failure LoadedConfig := do
  let text ← match files.read path with
    | .ok text => .ok text
    | .error e => .error (.fileRead path e)
  return { config := ← parse text, source := some path }

/-- The paths at which a configuration may be, in order. -/
def candidates (files : ConfigFiles) : List String :=
  (files.projectDir.map (Path.join · projectFileName)).toList ++
    (files.userDir.map (Path.join · userFileName)).toList

/-- The configuration in the first file that exists, or the default one. -/
def load (files : ConfigFiles) : Except Failure LoadedConfig :=
  match (candidates files).find? files.isFile with
  | some path => loadFrom files path
  | none => .ok {}

end Config

end ScriptLint
