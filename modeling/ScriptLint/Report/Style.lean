/-!
Styles of terminal text: a styled text stands between control sequences that switch its styles on
and all of them off again.
-/

namespace ScriptLint

inductive Style where
  | red
  | green
  | yellow
  | cyan
  | bold
  | dim
  deriving DecidableEq, Repr

def Style.start : Style → String
  | red => "\x1b[31m"
  | green => "\x1b[32m"
  | yellow => "\x1b[33m"
  | cyan => "\x1b[36m"
  | bold => "\x1b[1m"
  | dim => "\x1b[2m"

def Style.reset : String := "\x1b[0m"

/-- The text in the styles, or as it is where colors are off. -/
def paint (colored : Bool) (styles : List Style) (text : String) : String :=
  if colored then String.join (styles.map Style.start) ++ text ++ Style.reset else text

/-- A word that classifies a line of a report, with the sign in front of it. -/
structure Label where
  sign : String
  word : String
  color : Style
  deriving DecidableEq, Repr

inductive ColorMode where
  | auto
  | always
  | never
  deriving DecidableEq, Repr

/-- With `auto`, a terminal gets colors unless the user's environment asks for none. -/
def ColorMode.resolve (mode : ColorMode) (isTerminal noColor : Bool) : Bool :=
  match mode with
  | auto => isTerminal && !noColor
  | always => true
  | never => false

end ScriptLint
