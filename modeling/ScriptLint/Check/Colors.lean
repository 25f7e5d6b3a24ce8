import ScriptLint.Check.Basic
import ScriptLint.Palette
import ScriptLint.Script
import ScriptLint.Shell.Assignment

/-!
Checks of color variables. The lines that assign to a color of the palette are grouped by color, in
order of first assignment; both checks read these groups.
-/

namespace ScriptLint

/-- A line that assigns to a color variable. -/
structure ColorDefinition where
  number : Nat
  line : Line
  readonly : Bool
  deriving DecidableEq, Repr

abbrev ColorDefinitions := List (String × List ColorDefinition)

namespace ColorDefinitions

/-- Adds a definition to the group of its color; a new color gets a new last group. -/
def add (name : String) (d : ColorDefinition) (groups : ColorDefinitions) : ColorDefinitions :=
  Keyed.alter name (fun ds => ds.getD [] ++ [d]) groups

/-- The color of the palette that a line assigns to, and whether it is made readonly. -/
def colorAssignment? (palette : Palette) (line : Line) : Option (String × Bool) :=
  match Shell.assignment? line with
  | some a =>
    let name := String.ofList a.name
    if (palette.lookup name).isSome then some (name, a.readonly) else none
  | none => none

/-- The groups with the definition that a numbered line makes, if any. -/
def addLine (palette : Palette) (groups : ColorDefinitions) (numbered : Nat × Line) :
    ColorDefinitions :=
  match colorAssignment? palette numbered.2 with
  | some (name, readonly) => groups.add name ⟨numbered.1, numbered.2, readonly⟩
  | none => groups

def ofLines (palette : Palette) (numbered : List (Nat × Line)) : ColorDefinitions :=
  numbered.foldl (addLine palette) []

end ColorDefinitions

/-- A color that is defined has its code on one of the defining lines. -/
def paletteFindings (palette : Palette) (script : Script) : List Finding :=
  let groups := ColorDefinitions.ofLines palette script.numberedLines
  palette.entries.filterMap fun (name, code) =>
    match groups.lookup name with
    | none | some [] => none
    | some (first :: others) =>
      if (first :: others).any fun d => occurs code.toList d.line then none
      else
        let message := "incorrect color code for " ++ name ++ " (expected: " ++ code ++ ")"
        some (Check.palette.warn message (some first.number))

/-- The functions that print through the shared logging. -/
def loggingFunctions : List String :=
  ["log_error", "log_success", "log_info", "log_warn"]

/-- The number of the first line that makes a color readonly. -/
def firstReadonly? (groups : ColorDefinitions) : Option Nat :=
  (((groups.flatMap (·.2)).filter (·.readonly)).map (·.number)).min?

/-- A script with readonly colors mentions one of the logging functions. -/
def loggingFindings (palette : Palette) (script : Script) : List Finding :=
  match firstReadonly? (ColorDefinitions.ofLines palette script.numberedLines) with
  | none => []
  | some number =>
    if loggingFunctions.any fun f => hasWord f.toList script.text then []
    else
      let expected := String.intercalate ", " loggingFunctions
      let message := "colors defined but unused by logging (expected one of: " ++ expected ++ ")"
      [Check.loggingUsage.warn message (some number)]

end ScriptLint
