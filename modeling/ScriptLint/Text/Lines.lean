/-!
Lines. A line ends at a line feed; one carriage return directly before that line feed belongs to the
line end. Text that ends with a line feed has no empty last line.
-/

namespace ScriptLint

/-- A line without its line end. -/
abbrev Line := List Char

def lines : List Char → List Line
  | [] => []
  | '\n' :: rest => [] :: lines rest
  | '\r' :: '\n' :: rest => [] :: lines rest
  | c :: rest =>
    match lines rest with
    | [] => [[c]]
    | line :: others => (c :: line) :: others

@[simp] theorem lines_nil : lines [] = [] := rfl

@[simp] theorem lines_lf (rest : List Char) : lines ('\n' :: rest) = [] :: lines rest := rfl

@[simp] theorem lines_crlf (rest : List Char) :
    lines ('\r' :: '\n' :: rest) = [] :: lines rest := rfl

/-- A character that starts no line end comes before what is on the first line after it. -/
theorem lines_cons {c : Char} {s : List Char} (hc : c ≠ '\n')
    (hcr : c = '\r' → s.head? ≠ some '\n') :
    lines (c :: s) =
      match lines s with
      | [] => [[c]]
      | line :: others => (c :: line) :: others := by
  rw [lines]
  · exact hc
  · rintro rest rfl rfl
    exact hcr rfl rfl

theorem lines_eq_nil_iff {s : List Char} : lines s = [] ↔ s = [] := by
  fun_cases lines s <;> simp_all

/-- No line feed is left in a line. -/
theorem lf_not_mem_of_mem_lines {s : List Char} : ∀ line ∈ lines s, '\n' ∉ line := by
  fun_induction lines s with
  | case1 => simp
  | case2 rest ih => simpa using ih
  | case3 rest ih => simpa using ih
  | case4 c rest hc _ _ _ => simpa using Ne.symm hc
  | case5 c rest hc _ line others h ih =>
    rw [h] at ih
    simp only [List.mem_cons, forall_eq_or_imp, not_or] at ih ⊢
    exact ⟨⟨Ne.symm hc, ih.1⟩, ih.2⟩

/-- Text without line feeds is one line, if there is any text. -/
theorem lines_of_lf_not_mem {s : List Char} (hne : s ≠ []) (h : '\n' ∉ s) : lines s = [s] := by
  induction s with
  | nil => exact absurd rfl hne
  | cons c s ih =>
    obtain ⟨hc, hs⟩ := List.ne_and_not_mem_of_not_mem_cons h
    have hhead : s.head? ≠ some '\n' := fun hm => hs (List.mem_of_mem_head? hm)
    rw [lines_cons hc.symm fun _ => hhead]
    by_cases hnil : s = []
    · rw [hnil]
      rfl
    · rw [ih hnil hs]

/-- A carriage return before a line feed changes nothing. -/
theorem lines_cr {s : List Char} (h : s.head? = some '\n') : lines ('\r' :: s) = lines s := by
  cases s with
  | nil => cases h
  | cons c s =>
    cases h
    rfl

/-- What comes after a line feed is split into lines on its own. -/
theorem lines_append_cons_lf (s rest : List Char) :
    lines (s ++ '\n' :: rest) = lines (s ++ ['\n']) ++ lines rest := by
  induction s with
  | nil => rfl
  | cons c s ih =>
    have hhead : (s ++ '\n' :: rest).head? = (s ++ ['\n']).head? := by
      cases s <;> rfl
    rw [List.cons_append, List.cons_append]
    by_cases hlf : c = '\n'
    · rw [hlf, lines_lf, lines_lf, ih, List.cons_append]
    -- A carriage return that belongs to the line end after it is not on any line.
    by_cases hcrlf : c = '\r' ∧ (s ++ ['\n']).head? = some '\n'
    · rw [hcrlf.1, lines_cr hcrlf.2, lines_cr (hhead.trans hcrlf.2), ih]
    · have hcr : c = '\r' → (s ++ ['\n']).head? ≠ some '\n' := fun hc h => hcrlf ⟨hc, h⟩
      rw [lines_cons hlf hcr, lines_cons hlf (hhead ▸ hcr), ih]
      cases h : lines (s ++ ['\n']) with
      | nil => simpa using lines_eq_nil_iff.mp h
      | cons line others => rfl

/-- A line feed ends one line, if there is none before it, and takes one carriage return with it. -/
theorem lines_append_lf_cases {s : List Char} (h : '\n' ∉ s) :
    lines (s ++ ['\n']) = [s] ∨ ∃ s', s = s' ++ ['\r'] ∧ lines (s ++ ['\n']) = [s'] := by
  induction s with
  | nil => exact .inl rfl
  | cons c s ih =>
    obtain ⟨hlf, hs⟩ := List.ne_and_not_mem_of_not_mem_cons h
    by_cases hcrlf : c = '\r' ∧ s = []
    · obtain ⟨rfl, rfl⟩ := hcrlf
      exact .inr ⟨[], rfl, rfl⟩
    · have hhead : c = '\r' → (s ++ ['\n']).head? ≠ some '\n' := by
        intro hcr hhead
        cases s with
        | nil => exact hcrlf ⟨hcr, rfl⟩
        | cons d s =>
          obtain rfl : d = '\n' := Option.some.inj hhead
          exact hs List.mem_cons_self
      rw [List.cons_append, lines_cons hlf.symm hhead]
      rcases ih hs with hline | ⟨s', rfl, hline⟩
      · exact .inl (by rw [hline])
      · exact .inr ⟨c :: s', rfl, by rw [hline]⟩

theorem length_lines_append_lf {s : List Char} (h : '\n' ∉ s) :
    (lines (s ++ ['\n'])).length = 1 := by
  rcases lines_append_lf_cases h with hline | ⟨s', -, hline⟩
  · rw [hline]
    rfl
  · rw [hline]
    rfl

/-- Each line with its number, counted from one. -/
def numbered (ls : List Line) : List (Nat × Line) :=
  (ls.zipIdx 1).map fun (line, n) => (n, line)

/-- The numbers of lines count them. -/
theorem map_fst_numbered (ls : List Line) :
    (numbered ls).map Prod.fst = List.range' 1 ls.length := by
  rw [numbered, List.map_map]
  exact List.zipIdx_map_snd 1 ls

/-- Every line gets a number. -/
theorem map_snd_numbered (ls : List Line) : (numbered ls).map Prod.snd = ls := by
  rw [numbered, List.map_map]
  exact List.zipIdx_map_fst 1 ls

theorem exists_mem_numbered_iff {ls : List Line} {line : Line} :
    (∃ n, (n, line) ∈ numbered ls) ↔ line ∈ ls := by
  constructor
  · rintro ⟨n, hm⟩
    rw [← map_snd_numbered ls]
    exact List.mem_map_of_mem (f := Prod.snd) hm
  · intro hm
    rw [← map_snd_numbered ls, List.mem_map] at hm
    obtain ⟨⟨n, _⟩, hm, rfl⟩ := hm
    exact ⟨n, hm⟩

/-- A numbered line stands in its place. -/
theorem mem_numbered_iff {ls : List Line} {n : Nat} {line : Line} :
    (n, line) ∈ numbered ls ↔ 1 ≤ n ∧ ls[n - 1]? = some line := by
  rw [← List.mk_mem_zipIdx_iff_le_and_getElem?_sub, numbered, List.mem_map]
  constructor
  · rintro ⟨⟨line', n'⟩, hm, he⟩
    cases he
    exact hm
  · intro hm
    exact ⟨(line, n), hm, rfl⟩

theorem bounds_of_mem_numbered {ls : List Line} {n : Nat} {line : Line}
    (h : (n, line) ∈ numbered ls) :
    1 ≤ n ∧ n ≤ ls.length ∧ line ∈ ls := by
  obtain ⟨⟨line', n'⟩, hm, he⟩ := List.mem_map.mp h
  cases he
  obtain ⟨hlow, hhigh, hline⟩ := List.mem_zipIdx hm
  exact ⟨hlow, by omega, hline ▸ List.getElem_mem _⟩

end ScriptLint
