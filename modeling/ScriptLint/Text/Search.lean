/-!
Searching in text: the text after a given beginning, and the occurrence of one text inside another.
-/

namespace ScriptLint

/-- What follows `start` in a text that begins with it. -/
def stripStart : (start text : List Char) → Option (List Char)
  | [], text => some text
  | _ :: _, [] => none
  | p :: ps, c :: cs => if p = c then stripStart ps cs else none

def occurs (part : List Char) : List Char → Bool
  | [] => part.isEmpty
  | c :: cs => (stripStart part (c :: cs)).isSome || occurs part cs

theorem stripStart_eq_some_iff {start text rest : List Char} :
    stripStart start text = some rest ↔ text = start ++ rest := by
  induction start generalizing text with
  | nil => simp [stripStart]
  | cons p ps ih =>
    cases text with
    | nil => simp [stripStart]
    | cons c cs =>
      by_cases h : p = c
      · simp [stripStart, h, ih]
      · simp [stripStart, h, Ne.symm h]

theorem isSome_stripStart_iff {start text : List Char} :
    (stripStart start text).isSome ↔ start <+: text := by
  rw [Option.isSome_iff_exists]
  constructor
  · rintro ⟨rest, h⟩
    exact ⟨rest, (stripStart_eq_some_iff.mp h).symm⟩
  · rintro ⟨rest, h⟩
    exact ⟨rest, stripStart_eq_some_iff.mpr h.symm⟩

/-- A text occurs in another exactly when the other splits around it. -/
theorem occurs_iff {part text : List Char} :
    occurs part text ↔ ∃ before after, text = before ++ part ++ after := by
  induction text with
  | nil => cases part <;> simp [occurs]
  | cons c cs ih =>
    rw [occurs, Bool.or_eq_true, isSome_stripStart_iff, ih]
    constructor
    · rintro (⟨after, h⟩ | ⟨before, after, h⟩)
      · exact ⟨[], after, by simpa using h.symm⟩
      · exact ⟨c :: before, after, by simp [h]⟩
    · rintro ⟨before, after, h⟩
      cases before with
      | nil => exact .inl ⟨after, by simpa using h.symm⟩
      | cons b bs =>
        simp only [List.cons_append, List.cons.injEq] at h
        exact .inr ⟨bs, after, h.2⟩

end ScriptLint
