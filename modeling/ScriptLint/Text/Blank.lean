/-!
White space: the characters with the White_Space property, and trimming. Trimming removes exactly
the blank characters at the two ends.
-/

namespace ScriptLint

/-- The characters of the White_Space property: the ASCII blanks and line breaks, next line, the
no-break spaces, and the spaces and separators of the general punctuation and CJK blocks. -/
def isBlank (c : Char) : Bool :=
  let n := c.toNat
  (9 ≤ n && n ≤ 13) || n == 0x20 || n == 0x85 || n == 0xa0 || n == 0x1680 ||
    (0x2000 ≤ n && n ≤ 0x200a) || n == 0x2028 || n == 0x2029 || n == 0x202f || n == 0x205f ||
    n == 0x3000

def trimStart (s : List Char) : List Char :=
  s.dropWhile isBlank

def trimEnd (s : List Char) : List Char :=
  (s.reverse.dropWhile isBlank).reverse

def trim (s : List Char) : List Char :=
  trimEnd (trimStart s)

theorem mem_of_mem_trimStart {s : List Char} {c : Char} (h : c ∈ trimStart s) : c ∈ s :=
  (List.dropWhile_sublist isBlank).subset h

theorem mem_of_mem_trim {s : List Char} {c : Char} (h : c ∈ trim s) : c ∈ s := by
  rw [trim, trimEnd, List.mem_reverse] at h
  have hreversed := (List.dropWhile_sublist isBlank).subset h
  exact mem_of_mem_trimStart (List.mem_reverse.mp hreversed)

/-- At least one blank is required; all of them are dropped. -/
def skipBlanks1 : List Char → Option (List Char)
  | [] => none
  | c :: s => if isBlank c then some (trimStart s) else none

end ScriptLint
