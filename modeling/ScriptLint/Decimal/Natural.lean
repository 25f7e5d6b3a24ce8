/-!
Natural numbers in decimal. Reading the digits of a number gives the number back.
-/

namespace ScriptLint

def digitChar (d : Nat) : Char :=
  Char.ofNat (0x30 + d)

def digitValue (c : Char) : Nat :=
  c.toNat - 0x30

/-- The decimal digits of a number, without leading zeros. -/
def decimal (n : Nat) : List Char :=
  if n < 10 then [digitChar n] else decimal (n / 10) ++ [digitChar (n % 10)]
termination_by n

/-- The number that decimal digits spell. -/
def ofDecimal (digits : List Char) : Nat :=
  digits.foldl (fun n c => 10 * n + digitValue c) 0

theorem digitValue_digitChar {d : Nat} (h : d < 10) : digitValue (digitChar d) = d :=
  (by decide : ∀ d, d < 10 → digitValue (digitChar d) = d) d h

theorem isDigit_digitChar {d : Nat} (h : d < 10) : (digitChar d).isDigit = true :=
  (by decide : ∀ d, d < 10 → (digitChar d).isDigit = true) d h

theorem decimal_ne_nil (n : Nat) : decimal n ≠ [] := by
  rw [decimal]
  split
  · simp
  · simp

theorem isDigit_of_mem_decimal {n : Nat} {c : Char} (h : c ∈ decimal n) : c.isDigit = true := by
  fun_induction decimal n with
  | case1 n hn =>
    rw [List.mem_singleton.mp h]
    exact isDigit_digitChar hn
  | case2 n hn ih =>
    rcases List.mem_append.mp h with h | h
    · exact ih h
    · rw [List.mem_singleton.mp h]
      exact isDigit_digitChar (by omega)

theorem ofDecimal_decimal (n : Nat) : ofDecimal (decimal n) = n := by
  fun_induction decimal n with
  | case1 n h => simp [ofDecimal, digitValue_digitChar h]
  | case2 n h ih =>
    have hd : digitValue (digitChar (n % 10)) = n % 10 := digitValue_digitChar (by omega)
    simp only [ofDecimal] at ih
    simp only [ofDecimal, List.foldl_append, ih, List.foldl_cons, List.foldl_nil, hd]
    omega

def decimalText (n : Nat) : String :=
  String.ofList (decimal n)

end ScriptLint
