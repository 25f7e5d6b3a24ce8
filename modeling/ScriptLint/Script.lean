import ScriptLint.Text.Lines
import ScriptLint.Text.Search

/-!
Scripts: what a check looks at, and the marker by which a script opts out of all checks.
-/

namespace ScriptLint

/-- A script to check. The mode holds the permission bits, if they are known. -/
structure Script where
  path : String
  extension : String
  text : List Char
  mode : Option Nat := none

namespace Script

def lines (s : Script) : List Line :=
  ScriptLint.lines s.text

def numberedLines (s : Script) : List (Nat × Line) :=
  numbered s.lines

/-- The first line; empty text has an empty first line. -/
def firstLine (s : Script) : Line :=
  s.lines.head?.getD []

end Script

/-- The text by which a script opts out. -/
def ignoreMarker : String := "STYLECHECK_IGNORE"

/-- The marker counts in this many lines from the start. -/
def ignoreScanLines : Nat := 10

def isIgnored (text : List Char) : Bool :=
  ((lines text).take ignoreScanLines).any (occurs ignoreMarker.toList)

end ScriptLint
