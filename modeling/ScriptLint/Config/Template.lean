/-!
The template of a configuration file. It states the defaults, and excludes directories that hold no
scripts of the project's own.
-/

namespace ScriptLint.Config

def templateLines : List String :=
  ["# shell-guard configuration file",
   "",
   "[scan]",
   "# File extensions to check (leading \"*.\" or \".\" is ignored)",
   "extensions = [\"sh\", \"py\"]",
   "",
   "# Descend into subdirectories",
   "recursive = false",
   "",
   "# Glob patterns matched against absolute paths, so prefix with \"**/\"",
   "exclude = [",
   "    \"**/.git/**\",",
   "    \"**/node_modules/**\",",
   "    \"**/vendor/**\",",
   "]",
   "",
   "[checks]",
   "# Checks to skip entirely (run `shell-guard checks` for the list)",
   "disabled = []",
   "",
   "[syntax]",
   "# Validate grammar with `<shell> -n <file>`",
   "enabled = true",
   "shell = \"bash\"",
   "",
   "[style]",
   "# Environment file every shell script must reference",
   "env_file = \".sys/env/.env\"",
   "",
   "# Function every Python script must call to load the environment",
   "python_env_marker = \"load_env\"",
   "",
   "# Expected RGB codes for color variables (default: Catppuccin Mocha)",
   "# [palette]",
   "# RED = \"243;139;168\"",
   "# GREEN = \"166;227;161\"",
   "# YELLOW = \"249;226;175\"",
   "# BLUE = \"137;180;250\"",
   "# MAUVE = \"203;166;247\"",
   "# SAPPHIRE = \"116;199;236\"",
   "# TEXT = \"205;214;244\"",
   "",
   "[format]",
   "# shfmt binary and flags used by `shell-guard fmt`",
   "program = \"shfmt\"",
   "options = [\"-i\", \"4\", \"-bn\", \"-ci\", \"-sr\"]",
   "extensions = [\"sh\"]"]

def template : String :=
  String.join (templateLines.map (· ++ "\n"))

end ScriptLint.Config
