/-!
The values of a TOML document.
-/

namespace ScriptLint.Toml

inductive FloatNumber where
  | nan
  | infinite (negative : Bool)
  /-- The number `digits · 10 ^ exponent`, or its negative. -/
  | finite (negative : Bool) (digits : Nat) (exponent : Int)
  deriving DecidableEq, Repr

inductive Value where
  | text (value : String)
  | integer (value : Int)
  | float (value : FloatNumber)
  | boolean (value : Bool)
  /-- A date, a time or both, in their standard form. -/
  | moment (value : String)
  | array (elements : List Value)
  /-- A table holds its entries in the order of the document, each key once. -/
  | table (entries : List (String × Value))
  deriving Repr

/-- The key under which a date or time appears where a table is asked for. -/
def momentKey : String := "$__toml_private_datetime"

/-- The entries of a table. A date or time counts as a table with one entry. -/
def Value.entries? : Value → Option (List (String × Value))
  | .table entries => some entries
  | .moment value => some [(momentKey, .text value)]
  | _ => none

end ScriptLint.Toml
