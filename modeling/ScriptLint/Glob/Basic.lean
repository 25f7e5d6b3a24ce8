/-!
Globs: patterns for whole paths, and the ways in which a pattern can be malformed.
-/

namespace ScriptLint

inductive Glob where
  /-- Matches the empty path only. -/
  | empty
  /-- One character, byte for byte. -/
  | literal (c : Char)
  /-- Any one byte, a slash too. -/
  | any
  /-- Any bytes, slashes too. -/
  | star
  /-- Nothing, or anything that ends with a slash. -/
  | deepStart
  /-- A slash and anything after it. -/
  | deepEnd
  /-- One slash, or two with anything between them. -/
  | deepMiddle
  /-- One byte that lies in one of the ranges, or in none of them if `negated`. -/
  | oneOf (negated : Bool) (ranges : List (Char × Char))
  /-- One pattern after the other. -/
  | append (first second : Glob)
  /-- Either pattern. -/
  | either (first second : Glob)
  deriving DecidableEq, Repr

namespace Glob

/-- One pattern after the other; an empty pattern leaves no trace. -/
def andThen : Glob → Glob → Glob
  | .empty, g => g
  | f, .empty => f
  | f, g => .append f g

def sequence (gs : List Glob) : Glob :=
  gs.foldr Glob.andThen .empty

/-- Any of the patterns; empty ones do not count, and with none left the choice is empty. -/
def choice : List Glob → Glob
  | [] => .empty
  | .empty :: gs => choice gs
  | g :: gs =>
    match choice gs with
    | .empty => g
    | others => .either g others

inductive ErrorKind where
  | unclosedClass
  /-- The second end of a range comes before the first. -/
  | invalidRange (first last : Char)
  | unopenedAlternates
  | unclosedAlternates
  /-- A backslash with nothing after it. -/
  | danglingEscape
  /-- Nothing is wrong with any one pattern, but they cannot be compiled together. -/
  | uncompilable (reason : String)
  deriving DecidableEq, Repr

def ErrorKind.message : ErrorKind → String
  | .unclosedClass => "unclosed character class; missing ']'"
  | .invalidRange first last =>
    "invalid range; '" ++ String.singleton first ++ "' > '" ++ String.singleton last ++ "'"
  | .unopenedAlternates =>
    "unopened alternate group; missing '\x7b' (maybe escape '\x7d' with '[\x7d]'?)"
  | .unclosedAlternates =>
    "unclosed alternate group; missing '\x7d' (maybe escape '\x7b' with '[\x7b]'?)"
  | .danglingEscape => "dangling '\\'"
  | .uncompilable reason => reason

structure Error where
  pattern : String
  kind : ErrorKind
  deriving DecidableEq, Repr

/-- Patterns that cannot be compiled together are not to be told apart. -/
def Error.message (e : Error) : String :=
  match e.kind with
  | .uncompilable reason => reason
  | kind => "error parsing glob '" ++ e.pattern ++ "': " ++ kind.message

end Glob

end ScriptLint
