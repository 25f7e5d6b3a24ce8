import ScriptLint.Toml.Reader

/-!
The four kinds of strings. Every reader starts after the opening quotes.
-/

namespace ScriptLint.Toml

/-- Where a reader stands in a string with escapes. -/
inductive Place where
  | plain
  /-- After a backslash. -/
  | escape
  /-- In a character code, with this many digits to come and this value so far. -/
  | code (owed value : Nat)
  /-- After a backslash at the end of a line; `broken` says that the line end has been passed. -/
  | gap (broken : Bool)
  deriving DecidableEq, Repr

/-- The character that a backslash and a letter stand for. -/
def simpleEscape? : Char → Option Char
  | '"' => some '"'
  | '\\' => some '\\'
  | 'b' => some '\x08'
  | 't' => some '\t'
  | 'n' => some '\n'
  | 'f' => some '\x0c'
  | 'r' => some '\r'
  | 'e' => some '\x1b'
  | _ => none

/-- The number of digits of the character code that a backslash and a letter begin. -/
def codeLength? : Char → Option Nat
  | 'x' => some 2
  | 'u' => some 4
  | 'U' => some 8
  | _ => none

def hexValue? (c : Char) : Option Nat :=
  let n := c.toNat
  if 0x30 ≤ n && n ≤ 0x39 then some (n - 0x30)
  else if 0x41 ≤ n && n ≤ 0x46 then some (n - 0x37)
  else if 0x61 ≤ n && n ≤ 0x66 then some (n - 0x57)
  else none

def charOf? (n : Nat) : Option Char :=
  if h : n.isValidChar then some (Char.ofNatAux n h) else none

/-- The place after the letter of an escape, with the character that is complete by then. -/
def afterEscape? (c : Char) : Option (List Char × Place) :=
  match simpleEscape? c, codeLength? c with
  | some d, _ => some ([d], .plain)
  | none, some n => some ([], .code n 0)
  | none, none => none

/-- The place after a digit of a character code, with the character that is complete by then. -/
def afterDigit? (owed value : Nat) (c : Char) : Option (List Char × Place) := do
  let value := 16 * value + (← hexValue? c)
  if owed ≤ 1 then
    let d ← charOf? value
    return ([d], .plain)
  return ([], .code (owed - 1) value)

/-- The result of the rest of a string, with characters in front. -/
def prepend (cs : List Char) (result : Option (List Char × List Char)) :
    Option (List Char × List Char) :=
  result.map fun (text, rest) => (cs ++ text, rest)

def readBasic : Place → Reader (List Char)
  | _, [] => none
  | .plain, c :: s =>
    if c = '"' then some ([], s)
    else if c = '\\' then readBasic .escape s
    else if isPlain c then prepend [c] (readBasic .plain s)
    else none
  | .escape, c :: s =>
    match afterEscape? c with
    | some (text, place) => prepend text (readBasic place s)
    | none => none
  | .code owed value, c :: s =>
    match afterDigit? owed value c with
    | some (text, place) => prepend text (readBasic place s)
    | none => none
  | .gap _, _ :: _ => none

/-- A string on one line in which every character stands for itself. -/
def readLiteral : Reader (List Char)
  | [] => none
  | c :: s =>
    if c = '\'' then some ([], s)
    else if isPlain c then prepend [c] (readLiteral s)
    else none

/-- Up to two quotes directly before the closing ones belong to the string. -/
def closeLong (quote : Char) : List Char → List Char × List Char
  | c :: d :: s =>
    if c = quote && d = quote then ([c, d], s)
    else if c = quote then ([c], d :: s)
    else ([], c :: d :: s)
  | [c] => if c = quote then ([c], []) else ([], [c])
  | [] => ([], [])

/-- A string over several lines. A backslash at the end of a line joins the next text that is not
blank. -/
def readLongBasic : Place → Reader (List Char)
  | .plain, '"' :: '"' :: '"' :: s => some (closeLong '"' s)
  | .gap true, '"' :: '"' :: '"' :: s => some (closeLong '"' s)
  | .plain, '\r' :: '\n' :: s => prepend ['\r', '\n'] (readLongBasic .plain s)
  | .escape, '\r' :: '\n' :: s => readLongBasic (.gap true) s
  | .gap _, '\r' :: '\n' :: s => readLongBasic (.gap true) s
  | .code .., '\r' :: '\n' :: _ => none
  | _, [] => none
  | .escape, c :: s =>
    if c = '\n' then readLongBasic (.gap true) s
    else if isSpace c then readLongBasic (.gap false) s
    else match afterEscape? c with
      | some (text, place) => prepend text (readLongBasic place s)
      | none => none
  | .code owed value, c :: s =>
    match afterDigit? owed value c with
    | some (text, place) => prepend text (readLongBasic place s)
    | none => none
  | .gap false, c :: s =>
    if c = '\n' then readLongBasic (.gap true) s
    else if isSpace c then readLongBasic (.gap false) s
    else none
  | place, c :: s =>
    if place != .plain && (c = '\n' || isSpace c) then readLongBasic place s
    else if c = '\\' then readLongBasic .escape s
    else if isPlain c || c = '\n' then prepend [c] (readLongBasic .plain s)
    else none

/-- A string over several lines in which every character stands for itself. -/
def readLongLiteral : Reader (List Char)
  | '\'' :: '\'' :: '\'' :: s => some (closeLong '\'' s)
  | '\r' :: '\n' :: s => prepend ['\r', '\n'] (readLongLiteral s)
  | c :: s => if isPlain c || c = '\n' then prepend [c] (readLongLiteral s) else none
  | [] => none

def dropLineEnd (s : List Char) : List Char :=
  (lineEnd? s).getD s

/-- A string of any kind, from its opening quotes on. -/
def readString : Reader (List Char)
  | '"' :: '"' :: '"' :: s => readLongBasic .plain (dropLineEnd s)
  | '"' :: s => readBasic .plain s
  | '\'' :: '\'' :: '\'' :: s => readLongLiteral (dropLineEnd s)
  | '\'' :: s => readLiteral s
  | _ => none

end ScriptLint.Toml
