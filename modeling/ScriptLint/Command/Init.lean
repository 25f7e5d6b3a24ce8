import ScriptLint.Command.Host
import ScriptLint.Config.Template

/-!
Starting a configuration: the template is written to a file that does not exist yet, unless
overwriting is asked for.
-/

namespace ScriptLint

def alreadyExists (path : String) : Failure :=
  .config ("Configuration file already exists: " ++ path ++ ". Use --force to overwrite.")

def runInit (host : Host) (r : Request) (i : InitRequest) : Action Outlet := do
  if (← get).hasPath host.cwd i.output && !i.force then throw (alreadyExists i.output)
  match (← get).write host.cwd i.output Config.template.toUTF8 with
  | .ok t => set t
  | .error e => throw (.io e)
  return { exitCode := .success, stdout :=
    printed r ("Created configuration file: " ++ i.output ++ "\n") }

end ScriptLint
