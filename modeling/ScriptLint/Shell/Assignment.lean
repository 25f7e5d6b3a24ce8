import ScriptLint.Text.Blank
import ScriptLint.Text.Word

/-!
Names and assignments at the start of a line of shell text.
-/

namespace ScriptLint.Shell

/-- A name at the start of the text, and what follows it: one character that satisfies `first`, then
all that satisfy `more`. -/
def readName? (first more : Char → Bool) : List Char → Option (List Char × List Char)
  | [] => none
  | c :: s => if first c then some (c :: s.takeWhile more, s.dropWhile more) else none

theorem not_mem_of_readName? {first more : Char → Bool} {s name rest : List Char} {c : Char}
    (hfirst : first c = false)
    (hmore : more c = false) (h : readName? first more s = some (name, rest)) : c ∉ name := by
  cases s with
  | nil => cases h
  | cons c' s =>
    rw [readName?] at h
    split at h
    · next hc' =>
      cases h
      refine List.not_mem_cons_of_ne_of_not_mem ?_ fun hm => ?_
      · rintro rfl
        rw [hfirst] at hc'
        cases hc'
      · rw [List.all_eq_true.mp List.all_takeWhile c hm] at hmore
        cases hmore
    · cases h

def isNameStart (c : Char) : Bool := isLetter c || c == '_'

def isNamePart (c : Char) : Bool := isNameStart c || isDigit c

def isUpperStart (c : Char) : Bool := ('A' ≤ c && c ≤ 'Z') || c == '_'

def isUpperPart (c : Char) : Bool := isUpperStart c || isDigit c

def isLowerStart (c : Char) : Bool := ('a' ≤ c && c ≤ 'z') || c == '_'

def isLowerPart (c : Char) : Bool := isLowerStart c || isDigit c

/-- A name of letters, digits and underscores that starts with no digit. -/
def identifier? : List Char → Option (List Char × List Char) :=
  readName? isNameStart isNamePart

def constantName? : List Char → Option (List Char × List Char) :=
  readName? isUpperStart isUpperPart

def variableName? : List Char → Option (List Char × List Char) :=
  readName? isLowerStart isLowerPart

/-- The name if an equals sign follows it directly. -/
def beforeEquals? : Option (List Char × List Char) → Option (List Char)
  | some (name, '=' :: _) => some name
  | _ => none

theorem beforeEquals?_eq_some_iff {read : Option (List Char × List Char)} {name : List Char} :
    beforeEquals? read = some name ↔ ∃ rest, read = some (name, '=' :: rest) := by
  constructor
  · intro h
    unfold beforeEquals? at h
    split at h
    · cases h
      exact ⟨_, rfl⟩
    · cases h
  · rintro ⟨rest, rfl⟩
    rfl

/-- What follows the keyword `readonly` and the blanks after it. -/
def afterReadonly? (s : List Char) : Option (List Char) :=
  (stripStart "readonly".toList s).bind skipBlanks1

/-- An assignment, with or without `readonly` before the name. -/
structure Assignment where
  name : List Char
  readonly : Bool
  deriving DecidableEq, Repr

/-- The assignment that a line makes after its leading blanks. -/
def assignment? (line : List Char) : Option Assignment :=
  let s := trimStart line
  match (afterReadonly? s).bind fun t => beforeEquals? (identifier? t) with
  | some name => some ⟨name, true⟩
  | none => (beforeEquals? (identifier? s)).map (⟨·, false⟩)

end ScriptLint.Shell
