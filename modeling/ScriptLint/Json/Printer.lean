import ScriptLint.Decimal.Natural
import ScriptLint.Json.Basic

/-!
Printing JSON: every element and member on a line of its own, indented by two blanks for each level.
Texts stand in quotes; quotes, backslashes and control characters in them are escaped.
-/

namespace ScriptLint.Json

/-- The hexadecimal digit of a number below sixteen. -/
def hexDigit (d : Nat) : Char :=
  if d < 10 then Char.ofNat (0x30 + d) else Char.ofNat (0x57 + d)

def escape (c : Char) : List Char :=
  match c with
  | '"' => ['\\', '"']
  | '\\' => ['\\', '\\']
  | '\x08' => ['\\', 'b']
  | '\t' => ['\\', 't']
  | '\n' => ['\\', 'n']
  | '\x0c' => ['\\', 'f']
  | '\r' => ['\\', 'r']
  | c =>
    if c.toNat < 0x20 then
      ['\\', 'u', '0', '0', hexDigit (c.toNat / 16), hexDigit (c.toNat % 16)]
    else [c]

def quote (s : List Char) : List Char :=
  '"' :: s.flatMap escape ++ ['"']

/-- The end of a line and the indentation of the next one. -/
def newline (depth : Nat) : List Char :=
  '\n' :: List.replicate (2 * depth) ' '

mutual

/-- A value whose lines after the first one are indented for the depth. -/
def printAt (depth : Nat) : Json → List Char
  | bool true => "true".toList
  | bool false => "false".toList
  | number n => decimal n
  | text s => quote s.toList
  | array [] => ['[', ']']
  | array (x :: xs) =>
    '[' :: newline (depth + 1) ++ printAt (depth + 1) x ++ printElements (depth + 1) xs ++
      newline depth ++ [']']
  | object [] => ['\x7b', '\x7d']
  | object ((key, x) :: ms) =>
    '\x7b' :: newline (depth + 1) ++ quote key.toList ++ [':', ' '] ++ printAt (depth + 1) x ++
      printMembers (depth + 1) ms ++ newline depth ++ ['\x7d']

def printElements (depth : Nat) : List Json → List Char
  | [] => []
  | x :: xs => ',' :: newline depth ++ printAt depth x ++ printElements depth xs

def printMembers (depth : Nat) : List (String × Json) → List Char
  | [] => []
  | (key, x) :: ms =>
    ',' :: newline depth ++ quote key.toList ++ [':',
      ' '] ++ printAt depth x ++ printMembers depth ms

end

def print (j : Json) : String :=
  String.ofList (printAt 0 j)

end ScriptLint.Json
