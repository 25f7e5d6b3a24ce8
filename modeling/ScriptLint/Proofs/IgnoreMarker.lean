import ScriptLint.Proofs.LineEnds

/-!
The marker by which a script opts out. It is searched for on each of the first lines; since no line
end can be in it, it is told by its place in the text: how many line feeds come before it. Main
statements: `standsWithin_append_cons`, where a text is divided, `any_take_lines_iff`, from lines to
places in the text, and `isIgnored_iff_marked`.
-/

namespace ScriptLint

/-- The part stands in the text, with fewer than `n` line feeds before it. -/
def StandsWithin (n : Nat) (part text : List Char) : Prop :=
  ∃ before after, text = before ++ (part ++ after) ∧ before.count '\n' < n

variable {part s rest before after : List Char} {c : Char} {n : Nat}

theorem not_standsWithin_zero : ¬StandsWithin 0 part s :=
  fun ⟨_, _, _, hcount⟩ => Nat.not_lt_zero _ hcount

theorem not_standsWithin_nil (hne : part ≠ []) : ¬StandsWithin n part [] := by
  rintro ⟨before, after, h, -⟩
  simp [hne] at h

/-- A part without the character that divides the text is on one side of it. -/
theorem append_cons_eq_append_iff (hne : part ≠ []) (hc : c ∉ part) :
    s ++ c :: rest = before ++ (part ++ after) ↔
      (∃ after', s = before ++ (part ++ after') ∧ after = after' ++ c :: rest) ∨
        ∃ before', before = s ++ c :: before' ∧ rest = before' ++ (part ++ after) := by
  constructor
  · intro h
    rcases List.append_eq_append_iff.mp h with ⟨x, hbefore, hx⟩ | ⟨x, hs, hx⟩
    · cases x with
      | nil =>
        obtain ⟨p, part, rfl⟩ := List.exists_cons_of_ne_nil hne
        cases hx
        exact absurd List.mem_cons_self hc
      | cons d x =>
        cases hx
        exact .inr ⟨x, hbefore, rfl⟩
    · rcases List.append_eq_append_iff.mp hx with ⟨y, rfl, hafter⟩ | ⟨y, hpart, hy⟩
      · exact .inl ⟨y, hs, hafter⟩
      · cases y with
        | nil => exact .inl ⟨[], by simp [hs, hpart], hy.symm⟩
        | cons d y =>
          cases hy
          exact absurd (by simp [hpart]) hc
  · rintro (⟨after', rfl, rfl⟩ | ⟨before', rfl, rfl⟩) <;> simp

theorem standsWithin_append_cons (hne : part ≠ []) (hc : c ∉ part) :
    StandsWithin n part (s ++ c :: rest) ↔
      StandsWithin n part s ∨ StandsWithin (n - (s ++ [c]).count '\n') part rest := by
  have hcount (before' : List Char) :
      (s ++ c :: before').count '\n' = (s ++ [c]).count '\n' + before'.count '\n' := by
    rw [← List.count_append, List.append_assoc]
    rfl
  constructor
  · rintro ⟨before, after, h, hn⟩
    rcases (append_cons_eq_append_iff hne hc).mp h with ⟨after', hs, -⟩ | ⟨before', rfl, hrest⟩
    · exact .inl ⟨before, after', hs, hn⟩
    · rw [hcount] at hn
      exact .inr ⟨before', after, hrest, by omega⟩
  · rintro (⟨before, after, hs, hn⟩ | ⟨before, after, hrest, hn⟩)
    · exact ⟨before, after ++ c :: rest,
        (append_cons_eq_append_iff hne hc).mpr (.inl ⟨after, hs, rfl⟩), hn⟩
    · refine ⟨s ++ c :: before, after,
        (append_cons_eq_append_iff hne hc).mpr (.inr ⟨before, rfl, hrest⟩), ?_⟩
      rw [hcount]
      omega

/-! ## The first lines -/

/-- Without line feeds, the whole text is within the first line. -/
theorem standsWithin_succ_iff_occurs (h : '\n' ∉ s) :
    StandsWithin (n + 1) part s ↔ occurs part s = true := by
  rw [occurs_iff]
  constructor
  · rintro ⟨before, after, hs, -⟩
    exact ⟨before, after, by rw [hs, List.append_assoc]⟩
  · rintro ⟨before, after, hs⟩
    refine ⟨before, after, by rw [hs, List.append_assoc], ?_⟩
    have hbefore : '\n' ∉ before := fun hm => h (by simp [hs, hm])
    rw [List.count_eq_zero.mpr hbefore]
    exact Nat.succ_pos n

/-- A part without line ends is on one of the first lines exactly if few enough line feeds come
before it. -/
theorem any_take_lines_iff (hne : part ≠ []) (hbreaks : NoBreaks part) (n : Nat)
    (text : List Char) :
    ((lines text).take n).any (occurs part) = true ↔ StandsWithin n part text := by
  have hsplits := splitsAtBreaks_occurs hne hbreaks
  induction n generalizing text with
  | zero => simp [not_standsWithin_zero]
  | succ n ih =>
    by_cases hlf : '\n' ∈ text
    · obtain ⟨s, rest, rfl, hs⟩ := List.eq_append_cons_of_mem hlf
      obtain ⟨line, hline⟩ := List.length_eq_one_iff.mp (length_lines_append_lf hs)
      -- The carriage return that the line may have lost at its end is not in the part.
      have hfirst : occurs part line = occurs part s := by
        have hany := hsplits.eq_any_lines (s ++ ['\n'])
        rw [hsplits.split s [] '\n' (.inl rfl), hsplits.empty, Bool.or_false, hline] at hany
        simpa using hany.symm
      have hcount : (s ++ ['\n']).count '\n' = 1 := by
        rw [List.count_append, List.count_eq_zero.mpr hs]
        rfl
      have hrest : ((lines rest).take n).any (occurs part) = true ↔
          StandsWithin n part rest := ih rest
      rw [lines_append_cons_lf, hline, List.singleton_append, List.take_succ_cons, List.any_cons,
        Bool.or_eq_true, hfirst, hrest, standsWithin_append_cons hne fun hm =>
          hbreaks '\n' hm (.inl rfl),
        standsWithin_succ_iff_occurs hs, hcount, Nat.add_sub_cancel]
    · rw [standsWithin_succ_iff_occurs hlf, hsplits.eq_any_lines text]
      by_cases hnil : text = []
      · simp [hnil]
      · simp [lines_of_lf_not_mem hnil hlf]

theorem isIgnored_iff_standsWithin {text : List Char} :
    isIgnored text = true ↔ StandsWithin 10 "STYLECHECK_IGNORE".toList text :=
  any_take_lines_iff (by decide) (by decide) 10 text

theorem isIgnored_append_break (hc : IsBreak c) :
    isIgnored (s ++ c :: rest) = true ↔
      isIgnored s = true ∨
        StandsWithin (10 - (s ++ [c]).count '\n') "STYLECHECK_IGNORE".toList rest := by
  have hbreaks : NoBreaks "STYLECHECK_IGNORE".toList := by decide
  rw [isIgnored_iff_standsWithin, isIgnored_iff_standsWithin]
  exact standsWithin_append_cons (by decide) fun hm => hbreaks c hm hc

/-- After its tenth line feed the text does not matter. -/
theorem isIgnored_append_lf (h : 9 ≤ s.count '\n') :
    isIgnored (s ++ '\n' :: rest) = isIgnored s := by
  rw [Bool.eq_iff_iff, isIgnored_append_break (.inl rfl)]
  have hcount : 10 - (s ++ ['\n']).count '\n' = 0 := by
    rw [List.count_append, List.count_singleton_self]
    omega
  rw [hcount]
  exact or_iff_left not_standsWithin_zero

theorem isIgnored_append_singleton (hc : IsBreak c) : isIgnored (s ++ [c]) = isIgnored s := by
  rw [Bool.eq_iff_iff, isIgnored_append_break hc]
  exact or_iff_left (not_standsWithin_nil (by decide))

theorem isIgnored_append_crlf :
    isIgnored (s ++ '\r' :: '\n' :: rest) = isIgnored (s ++ '\n' :: rest) := by
  have hcount : (s ++ ['\r'] ++ ['\n']).count '\n' = (s ++ ['\n']).count '\n' := by simp
  have hsplit : s ++ '\r' :: '\n' :: rest = (s ++ ['\r']) ++ '\n' :: rest := by simp
  rw [Bool.eq_iff_iff, hsplit, isIgnored_append_break (.inl rfl),
    isIgnored_append_break (.inl rfl), hcount, isIgnored_append_singleton (.inr rfl)]

/-- A script opts out exactly if the marker stands in its text with fewer than ten line feeds before
it. So neither the text after the tenth line feed matters, nor a carriage return at the end of a
line or of the text, nor a line feed at the end of the text. -/
theorem isIgnored_iff_marked (text : List Char) :
    (isIgnored text = true ↔
      ∃ before after, text = before ++ ("STYLECHECK_IGNORE".toList ++ after) ∧
        before.count '\n' < 10) ∧
    (∀ head tail tail', 9 ≤ head.count '\n' →
      isIgnored (head ++ '\n' :: tail) = isIgnored (head ++ '\n' :: tail')) ∧
    (∀ front back, (∀ c ∈ back.head?, c = '\n') →
      isIgnored (front ++ '\r' :: back) = isIgnored (front ++ back)) ∧
    isIgnored (text ++ ['\n']) = isIgnored text := by
  refine ⟨isIgnored_iff_standsWithin, ?_, ?_, isIgnored_append_singleton (.inl rfl)⟩
  · intro head tail tail' h
    rw [isIgnored_append_lf h, isIgnored_append_lf h]
  · intro front back h
    cases back with
    | nil => rw [isIgnored_append_singleton (.inr rfl), List.append_nil]
    | cons c back =>
      cases h c rfl
      exact isIgnored_append_crlf

/-- Nine lines, and then one that ends in the marker. -/
def tenthLineMarked : List Char :=
  "\n\n\n\n\n\n\n\n\n# STYLECHECK_IGNORE".toList

theorem isIgnored_iff_marked_tenthLine :
    9 ≤ tenthLineMarked.count '\n' ∧ isIgnored tenthLineMarked = true ∧
      isIgnored (tenthLineMarked ++ ['\r', '\n']) = true ∧
      isIgnored (tenthLineMarked ++ ['\r'] ++ '\n' :: "echo".toList) = true := by
  obtain ⟨hmarked, htail, hcr, hlf⟩ := isIgnored_iff_marked tenthLineMarked
  have h9 : 9 ≤ tenthLineMarked.count '\n' ∧ 9 ≤ (tenthLineMarked ++ ['\r']).count '\n' := by decide
  have hignored : isIgnored tenthLineMarked = true :=
    hmarked.mpr ⟨"\n\n\n\n\n\n\n\n\n# ".toList, [], by decide, by decide⟩
  have hend : isIgnored (tenthLineMarked ++ ['\r', '\n']) = true :=
    (hcr tenthLineMarked ['\n'] (by simp)).trans (hlf.trans hignored)
  refine ⟨h9.1, hignored, hend, ?_⟩
  rw [htail _ _ [] h9.2, List.append_assoc]
  exact hend

end ScriptLint
