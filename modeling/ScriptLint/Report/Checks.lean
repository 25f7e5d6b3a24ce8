import ScriptLint.Check.Basic

/-!
The table of all checks.
-/

namespace ScriptLint.Report

def padTo (width : Nat) (text : String) : String :=
  text ++ String.ofList (List.replicate (width - text.length) ' ')

/-- The kinds of files that a check looks at. -/
def checkTypes (check : Check) : String :=
  if check.appliesTo "" then "all"
  else String.intercalate "," (["sh", "py"].filter check.appliesTo)

def checkRow (name severity types description : String) : String :=
  padTo 20 name ++ " " ++ padTo 9 severity ++ " " ++ padTo 7 types ++ " " ++ description ++ "\n"

def checkTable : String :=
  checkRow "NAME" "SEVERITY" "TYPES" "DESCRIPTION" ++
    String.join (Check.all.map fun check =>
      checkRow check.name check.severity.name (checkTypes check) check.description)

end ScriptLint.Report
