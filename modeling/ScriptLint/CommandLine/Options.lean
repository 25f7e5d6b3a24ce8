import ScriptLint.CommandLine.Request
import ScriptLint.Decimal.Natural
import ScriptLint.ExitCode

/-!
Options: their names on each level of a command line, and what giving one of them means.
-/

namespace ScriptLint.CommandLine

/-- Why a command line is no request. -/
inductive Refusal where
  /-- The user asked for help. -/
  | help
  /-- The user asked for the version. -/
  | version
  /-- Nothing is given at all. -/
  | helpForNothing
  | missingCommand
  | unknownCommand
  | unknownArgument
  /-- An option stands without its value, or with one that cannot be meant. -/
  | invalidValue
  /-- A value does not have the form that its option asks for. -/
  | malformedValue
  /-- A flag has a value. -/
  | unexpectedValue
  /-- Two options exclude each other, or one that counts once is repeated. -/
  | conflict
  deriving DecidableEq, Repr

/-- To ask for help or the version is no error. -/
def Refusal.exitCode : Refusal → ExitCode
  | help | version => .success
  | _ => .notRun

def Refusal.message : Refusal → String
  | help | helpForNothing => "Usage: shell-guard [OPTIONS] <check|fmt|init|checks>"
  | version => "shell-guard 0.1.0"
  | missingCommand => "error: a command is missing"
  | unknownCommand => "error: there is no such command"
  | unknownArgument => "error: an argument is not known"
  | invalidValue => "error: an option stands without a value that it can have"
  | malformedValue => "error: the value of an option does not have the right form"
  | unexpectedValue => "error: a flag takes no value"
  | conflict => "error: an option is repeated, or excludes another one"

/-- The parts of a command line: what stands before the command, and what follows a command. -/
inductive Level where
  | global
  | check
  | fmt
  | init
  | checks
  deriving DecidableEq, Repr

def Level.named? : String → Option Level
  | "check" => some .check
  | "fmt" => some .fmt
  | "init" => some .init
  | "checks" => some .checks
  | _ => none

inductive Opt where
  | help
  | version
  | verbose
  | quiet
  | color
  | config
  | noConfig
  | types
  | recursive
  | exclude
  | format
  | output
  | noSyntax
  | shell
  | jobs
  | checkOnly
  | program
  | force
  deriving DecidableEq, Repr

namespace Opt

def takesValue : Opt → Bool
  | color | config | types | exclude | format | output | shell | jobs | program => true
  | help | version | verbose | quiet | noConfig | recursive | noSyntax | checkOnly | force => false

def long : Opt → String
  | help => "help"
  | version => "version"
  | verbose => "verbose"
  | quiet => "quiet"
  | color => "color"
  | config => "config"
  | noConfig => "no-config"
  | types => "types"
  | recursive => "recursive"
  | exclude => "exclude"
  | format => "format"
  | output => "output"
  | noSyntax => "no-syntax"
  | shell => "shell"
  | jobs => "jobs"
  | checkOnly => "check"
  | program => "shfmt"
  | force => "force"

def short? : Opt → Option Char
  | help => some 'h'
  | version => some 'V'
  | verbose => some 'v'
  | quiet => some 'q'
  | types => some 't'
  | recursive => some 'r'
  | exclude => some 'x'
  | format => some 'f'
  | output => some 'o'
  | jobs => some 'j'
  | checkOnly => some 'c'
  | color | config | noConfig | noSyntax | shell | program | force => none

end Opt

namespace Level

def shared : List Opt :=
  [.help, .verbose, .quiet, .color, .config, .noConfig]

def options : Level → List Opt
  | global => .version :: shared
  | check => shared ++ [.types, .recursive, .exclude, .format, .output, .noSyntax, .shell, .jobs]
  | fmt => shared ++ [.types, .recursive, .exclude, .checkOnly, .program]
  | init => shared ++ [.output, .force]
  | checks => shared

def takesPath : Level → Bool
  | check | fmt => true
  | global | init | checks => false

def long? (level : Level) (name : String) : Option Opt :=
  level.options.find? (·.long == name)

def short? (level : Level) (c : Char) : Option Opt :=
  level.options.find? (·.short? == some c)

end Level

structure Given where
  verbose : Option Nat := none
  quiet : Bool := false
  color : Option ColorMode := none
  config : Option String := none
  noConfig : Bool := false
  path : Option String := none
  types : Option (List String) := none
  recursive : Bool := false
  exclude : List String := []
  format : Option ReportFormat := none
  output : Option String := none
  noSyntax : Bool := false
  shell : Option String := none
  jobs : Option Nat := none
  checkOnly : Bool := false
  program : Option String := none
  force : Bool := false
  deriving DecidableEq, Repr

def splitCommas : List Char → List (List Char)
  | [] => [[]]
  | c :: s =>
    if c = ',' then [] :: splitCommas s
    else match splitCommas s with
      | [] => [[c]]
      | part :: parts => (c :: part) :: parts

/-- A whole number with or without a plus sign. -/
def wholeNumber? (text : String) : Option Nat :=
  let ds := match text.toList with
    | '+' :: ds => ds
    | ds => ds
  if ds.isEmpty || !ds.all Char.isDigit then none else some (ofDecimal ds)

def jobs? (text : String) : Option Nat :=
  (wholeNumber? text).filter fun n => 1 ≤ n && n ≤ 65535

def color? : String → Option ColorMode
  | "auto" => some .auto
  | "always" => some .always
  | "never" => some .never
  | _ => none

def maxCount : Nat := 255

namespace Given

/-- A flag may be given once. -/
def flag (given : Bool) (g : Given) : Except Refusal Given :=
  if given then .error .conflict else .ok g

/-- An option with one value may be given once; its value has to be readable. -/
def single {α : Type} (given : Option α) (refusal : Refusal) (value? : Option α) (set : α → Given) :
    Except Refusal Given :=
  if given.isSome then .error .conflict
  else match value? with
    | some v => .ok (set v)
    | none => .error refusal

def path? (text : String) : Option String :=
  if text = "" then none else some text

/-- Adds an option with its value; a flag has an empty one. -/
def add (g : Given) (opt : Opt) (value : String) : Except Refusal Given :=
  match opt with
  | .help => .error .help
  | .version => .error .version
  | .verbose => .ok { g with verbose := some (min maxCount (g.verbose.getD 0 + 1)) }
  | .quiet => flag g.quiet { g with quiet := true }
  | .color => single g.color .invalidValue (color? value) fun v => { g with color := some v }
  | .config => single g.config .invalidValue (path? value) fun v => { g with config := some v }
  | .noConfig => flag g.noConfig { g with noConfig := true }
  | .types =>
    let parts := (splitCommas value.toList).map String.ofList
    .ok { g with types := some (g.types.getD [] ++ parts) }
  | .recursive => flag g.recursive { g with recursive := true }
  | .exclude => .ok { g with exclude := g.exclude ++ [value] }
  | .format =>
    single g.format .malformedValue (ReportFormat.named? value) fun v => { g with format := some v }
  | .output => single g.output .invalidValue (path? value) fun v => { g with output := some v }
  | .noSyntax => flag g.noSyntax { g with noSyntax := true }
  | .shell => single g.shell .invalidValue (some value) fun v => { g with shell := some v }
  | .jobs => single g.jobs .malformedValue (jobs? value) fun v => { g with jobs := some v }
  | .checkOnly => flag g.checkOnly { g with checkOnly := true }
  | .program => single g.program .invalidValue (some value) fun v => { g with program := some v }
  | .force => flag g.force { g with force := true }

def addPath (g : Given) (value : String) : Except Refusal Given :=
  single g.path .invalidValue (path? value) fun v => { g with path := some v }

/-- Something that counts for every command is given. -/
def hasShared (g : Given) : Bool :=
  g.verbose.isSome || g.quiet || g.color.isSome || g.config.isSome || g.noConfig

def hasConflict (g : Given) : Bool :=
  (g.quiet && g.verbose.isSome) || (g.noConfig && g.config.isSome)

end Given

end ScriptLint.CommandLine
