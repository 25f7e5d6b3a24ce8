import ScriptLint.Toml.Moment
import ScriptLint.Toml.Node
import ScriptLint.Toml.Number

/-!
Keys, values and the statements of a document.
-/

namespace ScriptLint.Toml

def isBareKeyChar (c : Char) : Bool :=
  c.isAlphanum || c == '_' || c == '-'

def readKeyPart : Reader String
  | '"' :: s => (readBasic .plain s).map fun (text, rest) => (String.ofList text, rest)
  | '\'' :: s => (readLiteral s).map fun (text, rest) => (String.ofList text, rest)
  | s =>
    let text := s.takeWhile isBareKeyChar
    if text.isEmpty then none else some (String.ofList text, s.dropWhile isBareKeyChar)

/-- A key with dots between its parts: the parts before the last one, and the last one. -/
def readKey : Reader (List String × String) :=
  Reader.loop (fun (parts : List String) s => do
    let (part, rest) ← readKeyPart (skipSpaces s)
    match skipSpaces rest with
    | '.' :: rest => some (.inl (parts ++ [part]), rest)
    | rest => some (.inr (parts, part), rest)) []

/-- Arrays and inline tables stand inside each other at most this deep, and keys have fewer
parts. -/
def maxDepth : Nat := 80

/-- A key of a statement, whose parts are not too many. -/
def readPath (s : List Char) : Option ((List String × String) × List Char) := do
  let (key, rest) ← readKey s
  if key.1.length < maxDepth then some (key, rest) else none

def isScalarChar (c : Char) : Bool :=
  isBareKeyChar c || c == '+' || c == '.' || c == ':'

def scalar? (word : List Char) : Option Value :=
  if word = "true".toList then some (.boolean true)
  else if word = "false".toList then some (.boolean false)
  else match moment? word with
    | some text => some (.moment (String.ofList text))
    | none => number? word

/-- A word, which is a number, a truth value, a date or a time. A time may follow its date after a
blank. -/
def readScalar (s : List Char) : Option (Value × List Char) :=
  let word := s.takeWhile isScalarChar
  let rest := s.dropWhile isScalarChar
  match rest with
  | ' ' :: c :: after =>
    if isDate word && c.isDigit then
      let time := (c :: after).takeWhile isScalarChar
      (scalar? (word ++ ' ' :: time)).map fun v => (v, (c :: after).dropWhile isScalarChar)
    else (scalar? word).map fun v => (v, rest)
  | _ => (scalar? word).map fun v => (v, rest)

/-- One element of an array and the comma or bracket after it, or the closing bracket. -/
def elementStep (readElement : Reader Node) (elements : List Node) :
    Reader (List Node ⊕ List Node) := fun s =>
  match skipGaps false s with
  | ']' :: rest => some (.inr elements, rest)
  | s => do
    let (element, rest) ← readElement s
    match skipGaps false rest with
    | ',' :: rest => some (.inl (elements ++ [element]), rest)
    | ']' :: rest => some (.inr (elements ++ [element]), rest)
    | _ => none

/-- The value of a key, from the equals sign on. -/
def readAssigned (readValue : Reader Node) (s : List Char) : Option (Node × List Char) := do
  let rest ← expect? '=' (skipSpaces s)
  readValue (skipSpaces rest)

/-- One entry of an inline table and the comma or brace after it, or the closing brace. -/
def entryStep (readValue : Reader Node) (entries : Entries) : Reader (Entries ⊕ Entries) := fun s =>
  match skipGaps false s with
  | '\x7d' :: rest => some (.inr entries, rest)
  | s => do
    let ((path, key), rest) ← readPath s
    let (node, rest) ← readAssigned readValue rest
    let entries ← entries.assign? path key node .inline
    match skipGaps false rest with
    | ',' :: rest => some (.inl entries, rest)
    | '\x7d' :: rest => some (.inr entries, rest)
    | _ => none

/-- A value, in which brackets and braces may stand inside each other `depth` deep. -/
def readValue : (depth : Nat) → Reader Node
  | depth + 1, '[' :: s =>
    (Reader.loop (elementStep (readValue depth)) [] s).map fun (elements, rest) =>
      (.array elements, rest)
  | depth + 1, '\x7b' :: s =>
    (Reader.loop (entryStep (readValue depth)) [] s).map fun (entries, rest) =>
      (.table .inline entries, rest)
  | _, s =>
    match s with
    | '"' :: _ | '\'' :: _ =>
      (readString s).map fun (text, rest) => (.value (.text (String.ofList text)), rest)
    | _ => (readScalar s).map fun (v, rest) => (.value v, rest)

/-- A line of a document, or several if a value spans them. -/
inductive Statement where
  | assign (path : List String) (key : String) (node : Node)
  | table (path : List String) (key : String)
  | arrayTable (path : List String) (key : String)
  deriving Repr

/-- A header from after its first bracket on. -/
def readHeader : Reader Statement
  | '[' :: s => do
    let ((path, key), rest) ← readPath s
    let rest ← expect? ']' (← expect? ']' rest)
    return (.arrayTable path key, rest)
  | s => do
    let ((path, key), rest) ← readPath s
    let rest ← expect? ']' rest
    return (.table path key, rest)

def readStatement : Reader Statement
  | '[' :: s => readHeader s
  | s => do
    let ((path, key), rest) ← readPath s
    let (node, rest) ← readAssigned (readValue maxDepth) rest
    return (.assign path key node, rest)

/-- One line with at most one statement. -/
def lineStep (statements : List Statement) : Reader (List Statement ⊕ List Statement) := fun s =>
  match skipSpaces s with
  | [] => some (.inr statements, [])
  | s =>
    match finishLine? s with
    | some rest => some (.inl statements, rest)
    | none => do
      let (statement, rest) ← readStatement s
      let rest ← finishLine? rest
      return (.inl (statements ++ [statement]), rest)

def statements? (s : List Char) : Option (List Statement) :=
  (Reader.loop lineStep [] s).map (·.1)

end ScriptLint.Toml
