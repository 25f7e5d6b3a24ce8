/-!
Progress: how many of the files of a run are done. Every worker advances the same count.
-/

namespace ScriptLint

structure Progress where
  total : Nat
  label : String
  done : Nat := 0
  deriving DecidableEq, Repr

namespace Progress

def advance (p : Progress) : Progress :=
  { p with done := p.done + 1 }

/-- The counts after each of so many files. -/
def positions (p : Progress) : (files : Nat) → List Nat
  | 0 => []
  | n + 1 => p.advance.done :: p.advance.positions n

end Progress

end ScriptLint
