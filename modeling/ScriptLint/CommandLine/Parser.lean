import ScriptLint.CommandLine.Options
import ScriptLint.Text.Search

/-!
Reading command lines. An argument with dashes in front names options, and the argument after an
option that lacks its value is that value. A value counts, and can be refused, only when the next
option or path begins or the level ends.
-/

namespace ScriptLint.CommandLine

/-- An option or path that does not count yet. -/
inductive Pending where
  | option (opt : Opt) (value : Option String)
  | path (value : String)
  deriving DecidableEq, Repr

structure Reading where
  given : Given := {}
  pending : Option Pending := none
  /-- Two dashes have been passed: all other arguments are paths. -/
  onlyPaths : Bool := false
  deriving DecidableEq, Repr

namespace Reading

def awaitsValue (p : Reading) : Bool :=
  match p.pending with
  | some (.option _ none) => !p.onlyPaths
  | _ => false

/-- Lets what is pending count. -/
def settle (p : Reading) : Except Refusal Reading :=
  match p.pending with
  | none => .ok p
  | some (.option _ none) => .error .invalidValue
  | some (.option opt (some value)) => do
    return { p with given := ← p.given.add opt value, pending := none }
  | some (.path value) => do
    return { p with given := ← p.given.addPath value, pending := none }

def addOption (p : Reading) (opt : Opt) (value : String) : Except Refusal Reading := do
  let p ← p.settle
  return { p with given := ← p.given.add opt value }

def startOption (p : Reading) (opt : Opt) : Except Refusal Reading := do
  let p ← p.settle
  return { p with pending := some (.option opt none) }

/-- The path of the command; there may be one. -/
def addPath (level : Level) (p : Reading) (value : String) : Except Refusal Reading := do
  let taken := p.given.path.isSome || p.pending matches some (.path _)
  if !level.takesPath || taken then .error .unknownArgument
  else
    let p ← p.settle
    return { p with pending := some (.path value) }

/-- An option by its long name, with what follows an equals sign. -/
def addLong (level : Level) (p : Reading) (name : String) (value : Option String) :
    Except Refusal Reading :=
  match level.long? name with
  | none => .error .unknownArgument
  | some opt =>
    if opt.takesValue then
      match value with
      | some value => p.addOption opt value
      | none => p.startOption opt
    else if value.isSome then .error .unexpectedValue
    else p.addOption opt ""

/-- Flags by their letters one after the other. The letter of an option with a value takes the rest,
with or without an equals sign in front. -/
def addShorts (level : Level) (p : Reading) : List Char → Except Refusal Reading
  | [] => .ok p
  | c :: rest =>
    match level.short? c with
    | none => .error .unknownArgument
    | some opt =>
      if opt.takesValue then
        match rest with
        | [] => p.startOption opt
        | '=' :: value => p.addOption opt (String.ofList value)
        | value => p.addOption opt (String.ofList value)
      else do
        let p ← p.addOption opt ""
        addShorts level p rest

def addWord (level : Level) (p : Reading) (word : String) : Except Refusal Reading :=
  match p.pending with
  | some (.option opt none) =>
    if p.onlyPaths then p.addPath level word
    else .ok { p with pending := some (.option opt (some word)) }
  | _ => p.addPath level word

def add (level : Level) (p : Reading) (arg : String) : Except Refusal Reading :=
  if p.onlyPaths then p.addWord level arg
  else match arg.toList with
    | ['-', '-'] => .ok { p with onlyPaths := true }
    | '-' :: '-' :: long =>
      let name := String.ofList (long.takeWhile (· != '='))
      match long.dropWhile (· != '=') with
      | [] => p.addLong level name none
      | _ :: value => p.addLong level name (some (String.ofList value))
    | '-' :: c :: shorts => p.addShorts level (c :: shorts)
    | _ => p.addWord level arg

def finish (p : Reading) : Except Refusal Given := do
  return (← p.settle).given

end Reading

def checkConflicts (g : Given) : Except Refusal Unit :=
  if g.hasConflict then .error .conflict else .ok ()

/-- The name under which the help on commands is asked for. -/
def helpName : String := "help"

/-- The answer to a request for help on a command: there are no commands below commands. -/
def helpOn : List String → Refusal
  | [] => .help
  | [name] => if (Level.named? name).isSome || name = helpName then .help else .unknownCommand
  | _ => .unknownCommand

def readCommand (level : Level) (args : List String) : Except Refusal Given := do
  let p ← args.foldlM (Reading.add level) {}
  let given ← p.finish
  checkConflicts given
  return given

/-- An argument before the command that names no option. -/
def refuseWord (p : Reading) (word : String) : Refusal :=
  if p.onlyPaths && ((Level.named? word).isSome || word = helpName) then .unknownArgument
  else .unknownCommand

/-- Reads up to the command. Gives what stands before it, the command, and its arguments. -/
def readGlobal (p : Reading) : List String → Except Refusal (Reading × Option (Level × List String))
  | [] => .ok (p, none)
  | arg :: args =>
    if p.onlyPaths then .error (refuseWord p arg)
    else if p.awaitsValue then do
      readGlobal (← p.add .global arg) args
    else if arg = helpName then .error (helpOn args)
    else match Level.named? arg with
      | some level => .ok (p, some (level, args))
      | none =>
        match arg.toList with
        | '-' :: _ :: _ => do
          readGlobal (← p.add .global arg) args
        | _ => .error (refuseWord p arg)

def Given.command (g : Given) : Level → Command
  | .check => .check
      { path := g.path.getD ".", types := g.types, recursive := g.recursive, exclude := g.exclude
        format := g.format.getD .text, output := g.output, noSyntax := g.noSyntax, shell := g.shell
        jobs := g.jobs }
  | .fmt => .fmt
      { path := g.path.getD ".", types := g.types, recursive := g.recursive, exclude := g.exclude
        checkOnly := g.checkOnly, program := g.program }
  | .init =>
    let standard : InitRequest := {}
    .init { output := g.output.getD standard.output, force := g.force }
  | .checks | .global => .checks

/-- The request: what is given after the command counts before what is given in front of it. -/
def request (before after : Given) (level : Level) : Request where
  verbose := (after.verbose <|> before.verbose).getD 0
  quiet := after.quiet || before.quiet
  color := (after.color <|> before.color).getD .auto
  config := after.config <|> before.config
  noConfig := after.noConfig || before.noConfig
  command := after.command level

/-- Reads a command line, without the name of the program. Mistakes after the command count before
those in front of it. -/
def parse (args : List String) : Except Refusal Request := do
  let (p, command) ← readGlobal {} args
  match command with
  | some (level, args) =>
    let after ← readCommand level args
    let before ← p.finish
    checkConflicts before
    return request before after level
  | none =>
    let before ← p.finish
    .error (if before.hasShared then .missingCommand else .helpForNothing)

end ScriptLint.CommandLine
