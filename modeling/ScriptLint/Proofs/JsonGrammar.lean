import ScriptLint.Json.Printer
import ScriptLint.Toml.Strings

/-!
The grammar of JSON: which texts spell a value. Blanks may stand around every part of a text, and an
escape may stand for a character. Main statement: `isTextOf_print`, a printed value is spelled by
the grammar.
-/

namespace ScriptLint.Json

open Toml (hexValue?)

/-- A blank between the parts of a text. -/
def isGapChar (c : Char) : Bool :=
  c == ' ' || c == '\t' || c == '\n' || c == '\r'

def IsGap (w : List Char) : Prop :=
  ∀ c ∈ w, isGapChar c = true

/-- The character that a letter after a backslash stands for. -/
def escapeLetter? : Char → Option Char
  | '"' => some '"'
  | '\\' => some '\\'
  | '/' => some '/'
  | 'b' => some '\x08'
  | 'f' => some '\x0c'
  | 'n' => some '\n'
  | 'r' => some '\r'
  | 't' => some '\t'
  | _ => none

/-- The code unit that four hexadecimal digits spell. -/
def codeUnit? (a b c d : Char) : Option Nat := do
  return 4096 * (← hexValue? a) + 256 * (← hexValue? b) + 16 * (← hexValue? c) + (← hexValue? d)

/-- The first unit of a character that takes two of them. -/
def IsHigh (n : Nat) : Prop := 0xd800 ≤ n ∧ n < 0xdc00

/-- The second unit of such a character. -/
def IsLow (n : Nat) : Prop := 0xdc00 ≤ n ∧ n < 0xe000

instance (n : Nat) : Decidable (IsHigh n) := inferInstanceAs (Decidable (_ ∧ _))

instance (n : Nat) : Decidable (IsLow n) := inferInstanceAs (Decidable (_ ∧ _))

/-- The code of the character with two units. -/
def pairCode (high low : Nat) : Nat :=
  0x10000 + 0x400 * (high - 0xd800) + (low - 0xdc00)

/-- The ways to write a character inside quotes. -/
inductive SpellsChar : Char → List Char → Prop
  | plain {c : Char} (hq : c ≠ '"') (hb : c ≠ '\\') (hc : 0x20 ≤ c.toNat) : SpellsChar c [c]
  | letter {c l : Char} (h : escapeLetter? l = some c) : SpellsChar c ['\\', l]
  | unit {c a₁ a₂ a₃ a₄ : Char} (h : codeUnit? a₁ a₂ a₃ a₄ = some c.toNat) :
      SpellsChar c ['\\', 'u', a₁, a₂, a₃, a₄]
  | pair {c a₁ a₂ a₃ a₄ b₁ b₂ b₃ b₄ : Char} {high low : Nat}
      (ha : codeUnit? a₁ a₂ a₃ a₄ = some high) (hb : codeUnit? b₁ b₂ b₃ b₄ = some low)
      (hh : IsHigh high) (hl : IsLow low) (h : c.toNat = pairCode high low) :
      SpellsChar c ['\\', 'u', a₁, a₂, a₃, a₄, '\\', 'u', b₁, b₂, b₃, b₄]

/-- The ways to write characters one after the other. -/
inductive SpellsChars : List Char → List Char → Prop
  | nil : SpellsChars [] []
  | cons {c : Char} {cs u v : List Char} (hc : SpellsChar c u) (hcs : SpellsChars cs v) :
      SpellsChars (c :: cs) (u ++ v)

/-- A text stands in quotes. -/
inductive SpellsText : String → List Char → Prop
  | mk {t : String} {u : List Char} (h : SpellsChars t.toList u) : SpellsText t ('"' :: u ++ ['"'])

/-- The digits of a whole number: there is one, and the first one of several is not zero. -/
def IsWhole (ds : List Char) : Prop :=
  ds ≠ [] ∧ (∀ c ∈ ds, c.isDigit = true) ∧ (ds.head? = some '0' → ds = ['0'])

/-- Parts with commas between them, and blanks around each of them. -/
inductive Separated {α : Type} (P : α → List Char → Prop) : List α → List Char → Prop
  | nil {w : List Char} (h : IsGap w) : Separated P [] w
  | last {x : α} {w u w' : List Char} (before : IsGap w) (hx : P x u) (after : IsGap w') :
      Separated P [x] (w ++ u ++ w')
  | cons {x y : α} {xs : List α} {w u w' v : List Char} (before : IsGap w) (hx : P x u)
      (after : IsGap w') (hs : Separated P (y :: xs) v) :
      Separated P (x :: y :: xs) (w ++ u ++ w' ++ ',' :: v)

/-- A key and its value with a colon between them. -/
inductive SpellsMember (P : Json → List Char → Prop) : String × Json → List Char → Prop
  | mk {key : String} {x : Json} {u w w' v : List Char} (hk : SpellsText key u) (before : IsGap w)
      (after : IsGap w') (hx : P x v) : SpellsMember P (key, x) (u ++ w ++ ':' :: w' ++ v)

/-- The texts that spell a value. -/
inductive Spells : Json → List Char → Prop
  | bool {b : Bool} : Spells (.bool b) (if b then "true" else "false").toList
  | number {ds : List Char} (h : IsWhole ds) : Spells (.number (ofDecimal ds)) ds
  | text {t : String} {u : List Char} (h : SpellsText t u) : Spells (.text t) u
  | array {xs : List Json} {u : List Char} (h : Separated Spells xs u) :
      Spells (.array xs) ('[' :: u ++ [']'])
  | object {ms : List (String × Json)} {u : List Char} (h : Separated (SpellsMember Spells) ms u) :
      Spells (.object ms) ('\x7b' :: u ++ ['\x7d'])

/-- The text is a JSON text of the value: the value may have blanks around it. -/
def IsTextOf (text : String) (j : Json) : Prop :=
  ∃ w u w', IsGap w ∧ Spells j u ∧ IsGap w' ∧ text.toList = w ++ u ++ w'

section Printing

theorem isGap_nil : IsGap [] := by
  simp [IsGap]

theorem isGap_newline (depth : Nat) : IsGap (newline depth) := by
  intro c hc
  rcases List.mem_cons.mp hc with rfl | hc
  · decide
  · rw [List.eq_of_mem_replicate hc]
    decide

/-- A leading zero means that the number is zero. -/
theorem decimal_of_head {n : Nat} (h : (decimal n).head? = some '0') : n = 0 := by
  fun_induction decimal n with
  | case1 n hn =>
    have hd : digitChar n = '0' := by simpa using h
    have hv := digitValue_digitChar hn
    rw [hd] at hv
    exact hv.symm
  | case2 n hn ih =>
    rw [List.head?_append, Option.or_of_isSome (by simpa using decimal_ne_nil _)] at h
    have := ih h
    omega

theorem isWhole_decimal (n : Nat) : IsWhole (decimal n) := by
  refine ⟨decimal_ne_nil n, fun c hc => isDigit_of_mem_decimal hc, fun h => ?_⟩
  rw [decimal_of_head h, decimal]
  rfl

theorem hexValue_hexDigit {d : Nat} (h : d < 16) : hexValue? (hexDigit d) = some d :=
  (by decide : ∀ d, d < 16 → hexValue? (hexDigit d) = some d) d h

theorem codeUnit_hexDigit {n : Nat} (h : n < 0x20) :
    codeUnit? '0' '0' (hexDigit (n / 16)) (hexDigit (n % 16)) = some n := by
  have h0 : hexValue? '0' = some 0 := by decide
  have h1 := hexValue_hexDigit (show n / 16 < 16 by omega)
  have h2 := hexValue_hexDigit (show n % 16 < 16 by omega)
  simp only [codeUnit?, h0, h1, h2, bind, Option.bind, pure, Option.some.injEq]
  omega

theorem spellsChar_escape (c : Char) : SpellsChar c (escape c) := by
  unfold escape
  split
  · exact .letter rfl
  · exact .letter rfl
  · exact .letter rfl
  · exact .letter rfl
  · exact .letter rfl
  · exact .letter rfl
  · exact .letter rfl
  · next hq hb _ _ _ _ _ =>
    split
    · next hc => exact .unit (codeUnit_hexDigit hc)
    · next hc => exact .plain hq hb (by omega)

theorem spellsChars_flatMap_escape (cs : List Char) : SpellsChars cs (cs.flatMap escape) := by
  induction cs with
  | nil => exact .nil
  | cons c cs ih => exact .cons (spellsChar_escape c) ih

theorem spellsText_quote (t : String) : SpellsText t (quote t.toList) :=
  .mk (spellsChars_flatMap_escape t.toList)

variable {depth : Nat}

theorem separated_printElements (outer : Nat) (x : Json) (xs : List Json)
    (h : ∀ y ∈ x :: xs, Spells y (printAt depth y)) :
    Separated Spells (x :: xs)
      (newline depth ++ printAt depth x ++ printElements depth xs ++ newline outer) := by
  induction xs generalizing x with
  | nil =>
    rw [printElements, List.append_nil]
    exact .last (isGap_newline _) (h x (by simp)) (isGap_newline _)
  | cons y ys ih =>
    have hrest := ih y fun z hz => h z (List.mem_cons_of_mem _ hz)
    have hx := Separated.cons (isGap_newline depth) (h x (by simp)) isGap_nil hrest
    simpa [printElements] using hx

theorem separated_printMembers (outer : Nat) (key : String) (x : Json) (ms : List (String × Json))
    (h : ∀ m ∈ (key, x) :: ms, Spells m.2 (printAt depth m.2)) :
    Separated (SpellsMember Spells) ((key, x) :: ms)
      (newline depth ++ quote key.toList ++ [':',
        ' '] ++ printAt depth x ++ printMembers depth ms ++
        newline outer) := by
  have hspace : IsGap [' '] := by simp [IsGap, isGapChar]
  have hm : SpellsMember Spells (key,
      x) (quote key.toList ++ [] ++ ':' :: [' '] ++ printAt depth x) :=
    .mk (spellsText_quote key) isGap_nil hspace (h (key, x) (by simp))
  induction ms generalizing key x with
  | nil =>
    have hl := Separated.last (isGap_newline depth) hm (isGap_newline outer)
    simpa [printMembers] using hl
  | cons m ms ih =>
    obtain ⟨key', y⟩ := m
    have hm' : SpellsMember Spells (key', y)
        (quote key'.toList ++ [] ++ ':' :: [' '] ++ printAt depth y) :=
      .mk (spellsText_quote key') isGap_nil hspace (h (key', y) (by simp))
    have hrest := ih key' y (fun z hz => h z (List.mem_cons_of_mem _ hz)) hm'
    have hx := Separated.cons (isGap_newline depth) hm isGap_nil hrest
    simpa [printMembers] using hx

theorem spells_printAt (depth : Nat) (j : Json) : Spells j (printAt depth j) := by
  match j with
  | .bool true =>
    rw [printAt]
    exact .bool
  | .bool false =>
    rw [printAt]
    exact .bool
  | .number n =>
    have h := Spells.number (isWhole_decimal n)
    rw [ofDecimal_decimal] at h
    rw [printAt]
    exact h
  | .text t =>
    rw [printAt]
    exact .text (spellsText_quote t)
  | .array [] =>
    rw [printAt]
    exact .array (.nil isGap_nil)
  | .array (x :: xs) =>
    have h := Spells.array
      (separated_printElements depth x xs fun y _ => spells_printAt (depth + 1) y)
    simpa [printAt] using h
  | .object [] =>
    rw [printAt]
    exact .object (.nil isGap_nil)
  | .object ((key, x) :: ms) =>
    have h := Spells.object
      (separated_printMembers depth key x ms fun m _ => spells_printAt (depth + 1) m.2)
    simpa [printAt] using h
termination_by sizeOf j
decreasing_by
  · next hy =>
    have := List.sizeOf_lt_of_mem hy
    simp only [array.sizeOf_spec]
    omega
  · next hm =>
    have := List.sizeOf_lt_of_mem hm
    have : sizeOf m.2 < sizeOf m := by
      obtain ⟨_, y⟩ := m
      simp only [Prod.mk.sizeOf_spec]
      omega
    simp only [object.sizeOf_spec]
    omega

/-- A printed value is a JSON text of the value. -/
theorem isTextOf_print (j : Json) : IsTextOf j.print j :=
  ⟨[], printAt 0 j, [], isGap_nil, spells_printAt 0 j, isGap_nil, by simp [print]⟩

end Printing

end ScriptLint.Json
