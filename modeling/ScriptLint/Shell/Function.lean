import ScriptLint.Shell.Assignment
import ScriptLint.Text.Lines

/-!
Functions of a shell script, found line by line. A body opens at a declaration, closes at a line
that is only `}`, and is abandoned at the next declaration.
-/

namespace ScriptLint.Shell

/-- The name in `function name`. -/
def keywordFunction? (s : List Char) : Option (List Char) :=
  (((stripStart "function".toList s).bind skipBlanks1).bind identifier?).map (·.1)

/-- The name in `name() {`, where blanks may stand before and inside the brackets and before the
brace. -/
def bracketFunction? (s : List Char) : Option (List Char) :=
  match identifier? s with
  | none => none
  | some (name, rest) =>
    match trimStart rest with
    | '(' :: rest =>
      match trimStart rest with
      | ')' :: rest => if (trimStart rest).head? == some '\x7b' then some name else none
      | _ => none
    | _ => none

/-- The name of the function that a line declares. -/
def declaredFunction? (line : Line) : Option (List Char) :=
  let s := trimStart line
  (keywordFunction? s).or (bracketFunction? s)

/-- A declaration whose body ends on the same line. -/
def isOneLiner (line : Line) : Bool :=
  let s := trimEnd line
  s.contains '\x7b' && s.getLast? == some '\x7d'

def isClosing (line : Line) : Bool :=
  trim line == ['\x7d']

def assignsVariable (line : Line) : Bool :=
  (beforeEquals? (variableName? (trimStart line))).isSome

def mentionsLocal (line : Line) : Bool :=
  hasWord "local".toList line

/-- Bodies of at most this many lines are too short to report. -/
def minBodyLines : Nat := 2

/-- A function whose body is open: what its lines so far showed. -/
structure Body where
  name : List Char
  declaredAt : Nat
  lineCount : Nat := 0
  hasLocal : Bool := false
  hasAssignment : Bool := false
  deriving DecidableEq, Repr

namespace Body

def add (body : Body) (line : Line) : Body :=
  { body with
    lineCount := body.lineCount + 1
    hasLocal := body.hasLocal || mentionsLocal line
    hasAssignment := body.hasAssignment || assignsVariable line }

/-- Variables are assigned and none is declared local. -/
def leaks (body : Body) : Bool :=
  body.hasAssignment && !body.hasLocal && minBodyLines < body.lineCount

end Body

/-- The closed functions that leak variables, in the order of the lines that close them. -/
def leakingFunctions : (opened : Option Body) → List (Nat × Line) → List Body
  | _, [] => []
  | opened, (n, line) :: rest =>
    match declaredFunction? line with
    | some name =>
      leakingFunctions (if isOneLiner line then none else some { name, declaredAt := n }) rest
    | none =>
      match opened with
      | none => leakingFunctions none rest
      | some body =>
        if isClosing line then
          if body.leaks then body :: leakingFunctions none rest else leakingFunctions none rest
        else leakingFunctions (some (body.add line)) rest

end ScriptLint.Shell
