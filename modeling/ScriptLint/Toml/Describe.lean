import ScriptLint.Decimal.Shortest
import ScriptLint.Text.Quoted
import ScriptLint.Toml.Value

/-!
How messages describe a value: its kind, and for a single value the value itself.
-/

namespace ScriptLint.Toml

def backticked (text : String) : String :=
  "`" ++ text ++ "`"

/-- An integer in words: one that fits into 64 bits, with or without a sign, is just an integer. One
beyond 128 bits cannot be read. -/
def describeInteger? (n : Int) : Option String :=
  let text := if n < 0 then "-" ++ decimalText n.natAbs else decimalText n.natAbs
  let shown := "integer " ++ backticked text
  if -(Nat.pow 2 63) ≤ n && n < Nat.pow 2 64 then some shown
  else if -(Nat.pow 2 127) ≤ n && n < Nat.pow 2 127 then some (shown ++ " as i128")
  else if 0 ≤ n && n < Nat.pow 2 128 then some (shown ++ " as u128")
  else none

/-- The shortest text of a floating point number; one beyond all finite ones cannot be read. -/
def FloatNumber.text? : FloatNumber → Option String
  | nan => some "NaN"
  | infinite negative => some (if negative then "-inf" else "inf")
  | finite negative digits exponent =>
    (Binary64.ofDecimal? digits exponent).map fun b =>
      String.ofList (if negative then '-' :: b.toText else b.toText)

/-- A value in words, unless it is a number that cannot be read. -/
def Value.describe? : Value → Option String
  | .text s => some ("string " ++ String.ofList (quoted s.toList))
  | .integer n => describeInteger? n
  | .float f => f.text?.map fun text => "floating point " ++ backticked text
  | .boolean b => some ("boolean " ++ backticked (if b then "true" else "false"))
  | .array _ => some "sequence"
  | .moment _ | .table _ => some "map"

end ScriptLint.Toml
