/-!
Readers of text, and the layout of a TOML document: blanks, line ends and comments.
-/

namespace ScriptLint.Toml

/-- Takes a value from the start of a text, and gives it with the rest of the text. -/
abbrev Reader (α : Type) := List Char → Option (α × List Char)

/-- Repeats a step until it gives a result. A step that goes on must have taken a character. -/
def Reader.loop {σ β : Type} (step : σ → Reader (σ ⊕ β)) (state : σ) (s : List Char) :
    Option (β × List Char) :=
  match step state s with
  | none => none
  | some (.inr result, rest) => some (result, rest)
  | some (.inl state, rest) => if rest.length < s.length then loop step state rest else none
termination_by s.length

def isSpace (c : Char) : Bool :=
  c == ' ' || c == '\t'

/-- A character that stands for itself in comments and literal strings. -/
def isPlain (c : Char) : Bool :=
  c == '\t' || (0x20 ≤ c.toNat && c.toNat != 0x7f)

def skipSpaces (s : List Char) : List Char :=
  s.dropWhile isSpace

def lineEnd? : List Char → Option (List Char)
  | '\n' :: s => some s
  | '\r' :: '\n' :: s => some s
  | _ => none

def skipComment : List Char → List Char
  | '#' :: s => s.dropWhile isPlain
  | s => s

/-- The text of the next line, if nothing but blanks and a comment is left of this one. -/
def finishLine? (s : List Char) : Option (List Char) :=
  match skipComment (skipSpaces s) with
  | [] => some []
  | rest => lineEnd? rest

def skipGaps : (inComment : Bool) → List Char → List Char
  | _, '\n' :: s => skipGaps false s
  | _, '\r' :: '\n' :: s => skipGaps false s
  | true, c :: s => if isPlain c then skipGaps true s else c :: s
  | false, c :: s =>
    if isSpace c then skipGaps false s
    else if c = '#' then skipGaps true s
    else c :: s
  | _, [] => []

end ScriptLint.Toml
