import ScriptLint.Decimal.Natural
import ScriptLint.Toml.Strings
import ScriptLint.Toml.Value

/-!
Numbers: integers in four bases, and floating point numbers. An underscore may stand between two
digits.
-/

namespace ScriptLint.Toml

def isDecimalDigit (c : Char) : Bool :=
  c.isDigit

/-- The digits without the underscores between them; there is at least one. -/
def digits? (isDigit : Char → Bool) : List Char → Option (List Char)
  | [] => none
  | [c] => if isDigit c then some [c] else none
  | c :: '_' :: s => if isDigit c then (digits? isDigit s).map (c :: ·) else none
  | c :: s => if isDigit c then (digits? isDigit s).map (c :: ·) else none

/-- The digits of a whole decimal number: the first one is no zero, unless it is the only one. -/
def wholeDigits? (s : List Char) : Option (List Char) :=
  match digits? isDecimalDigit s with
  | some ('0' :: _ :: _) => none
  | result => result

def splitSign : List Char → Bool × List Char
  | '-' :: s => (true, s)
  | '+' :: s => (false, s)
  | s => (false, s)

/-- The number that digits of a base spell. -/
def ofDigits (base : Nat) (digits : List Char) : Nat :=
  digits.foldl (fun n c => base * n + (hexValue? c).getD 0) 0

def isDigitOf (base : Nat) (c : Char) : Bool :=
  (hexValue? c).any (· < base)

def basedInteger? (base : Nat) (s : List Char) : Option Value :=
  (digits? (isDigitOf base) s).map fun ds => .integer (ofDigits base ds)

/-- The exponent of a floating point number; without its mark there is none. -/
def exponent? : List Char → Option Int
  | [] => some 0
  | _ :: s =>
    let (negative, s) := splitSign s
    (digits? isDecimalDigit s).map fun ds =>
      if negative then -(ofDecimal ds : Int) else ofDecimal ds

/-- A floating point number after its sign: a whole part, then a fraction or an exponent or both. -/
def float? (negative : Bool) (s : List Char) : Option Value := do
  let isMark (c : Char) : Bool := c == 'e' || c == 'E'
  let mantissa := s.takeWhile fun c => !isMark c
  let exponent ← exponent? (s.dropWhile fun c => !isMark c)
  let whole ← wholeDigits? (mantissa.takeWhile (· != '.'))
  let fraction ← match mantissa.dropWhile (· != '.') with
    | [] => some []
    | _ :: s => digits? isDecimalDigit s
  return .float (.finite negative (ofDecimal (whole ++ fraction)) (exponent - fraction.length))

def unsigned? (negative : Bool) (s : List Char) : Option Value :=
  if s = "inf".toList then some (.float (.infinite negative))
  else if s = "nan".toList then some (.float .nan)
  else if s.any fun c => c == '.' || c == 'e' || c == 'E' then float? negative s
  else (wholeDigits? s).map fun ds =>
    .integer (if negative then -(ofDecimal ds : Int) else ofDecimal ds)

def number? : List Char → Option Value
  | '0' :: 'x' :: s => basedInteger? 16 s
  | '0' :: 'o' :: s => basedInteger? 8 s
  | '0' :: 'b' :: s => basedInteger? 2 s
  | s =>
    let (negative, s) := splitSign s
    unsigned? negative s

end ScriptLint.Toml
