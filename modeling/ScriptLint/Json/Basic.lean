/-!
JSON values, with the kinds of numbers and texts that reports hold.
-/

namespace ScriptLint

inductive Json where
  | bool (value : Bool)
  | number (value : Nat)
  | text (value : String)
  | array (elements : List Json)
  | object (members : List (String × Json))
  deriving Repr

end ScriptLint
