import ScriptLint.Text.Blank
import ScriptLint.Text.Word

/-!
Options of the `set` command. A line counts if it starts with `set`, leading blanks aside, and one
of the words after that begins the option.
-/

namespace ScriptLint.Shell

/-- Whether `p` holds of the text from the start of one of its words on, given that `between` says
whether a word may start right here. -/
def anyWordStart (p : List Char → Bool) : (between : Bool) → List Char → Bool
  | _, [] => false
  | between, c :: s => (between && !isBlank c && p (c :: s)) || anyWordStart p (isBlank c) s

/-- What follows `set` and the blanks after it. -/
def setArguments? (line : List Char) : Option (List Char) :=
  (stripStart "set".toList (trim line)).bind skipBlanks1

/-- The line is a `set` command with a word that satisfies `p` together with what follows it. -/
def setsOption (p : List Char → Bool) (line : List Char) : Bool :=
  (setArguments? line).any (anyWordStart p true)

/-- A dash and a run of letters with an `e` among them, as in `-eu`; no word character follows. -/
def isErrexitFlag : List Char → Bool
  | '-' :: s => (s.takeWhile isLetter).contains 'e' && atWordEnd (s.dropWhile isLetter)
  | _ => false

def isErrexitName (s : List Char) : Bool :=
  (((stripStart "-o".toList s).bind skipBlanks1).bind (stripStart "errexit".toList)).any atWordEnd

/-- A dash and a run of letters that ends in `o`, as in `-euo`, and then the word `pipefail`. -/
def isPipefail : List Char → Bool
  | '-' :: s =>
    (s.takeWhile isLetter).getLast? == some 'o' &&
      ((skipBlanks1 (s.dropWhile isLetter)).bind (stripStart "pipefail".toList)).any atWordEnd
  | _ => false

/-- The line makes the script stop at the first failing command. -/
def setsErrexit : List Char → Bool :=
  setsOption fun s => isErrexitFlag s || isErrexitName s

/-- The line makes a pipeline fail if one of its commands fails. -/
def setsPipefail : List Char → Bool :=
  setsOption isPipefail

end ScriptLint.Shell
