import Mathlib.Data.List.Basic
import ScriptLint.Proofs.SetWords

/-!
What comes behind the first command of a line: other commands after a semicolon, or a comment. The
checks of the options look at all words of a `set` line, so that an option may come from there. Main
statements: `sets_iff_firstCommand`, an option on a line is begun by words of its first command or
by words behind it, `optionFindings_firstCommands`, when the first commands alone give the same
findings, and `not_findings_firstCommands`, that they need not.
-/

namespace ScriptLint

/-- What comes before the first semicolon and before the first number sign after a blank;
`afterBlank` says whether the text itself comes after a blank. -/
def beforeCommandEnd : (afterBlank : Bool) → List Char → List Char
  | _, [] => []
  | afterBlank, c :: s =>
    if c = ';' ∨ (afterBlank = true ∧ c = '#') then [] else c :: beforeCommandEnd (isBlank c) s

/-- The first command of a line, without a comment behind it. -/
def firstCommand (line : Line) : Line :=
  beforeCommandEnd false line

/-- What comes on the line behind its first command. -/
def trailer (line : Line) : Line :=
  line.drop (firstCommand line).length

/-- The script with the first commands of its lines alone. -/
def Script.firstCommands (script : Script) : Script :=
  { script with text := script.lines.flatMap fun line => firstCommand line ++ ['\n'] }

/-- The text is empty, or starts with one of the characters that end commands. -/
def StartsTrailer (t : List Char) : Prop :=
  ∀ c ∈ t.head?, c = ';' ∨ c = '#'

variable {v w s t rest : List Char} {front more ws : List (List Char)} {c : Char}

theorem exists_beforeCommandEnd_append (afterBlank : Bool) (s : List Char) :
    ∃ t, s = beforeCommandEnd afterBlank s ++ t ∧ StartsTrailer t := by
  induction s generalizing afterBlank with
  | nil => exact ⟨[], rfl, nofun⟩
  | cons c s ih =>
    rw [beforeCommandEnd]
    split
    · next hend =>
      refine ⟨c :: s, rfl, ?_⟩
      rintro _ ⟨rfl⟩
      exact hend.imp_right And.right
    · obtain ⟨t, hs, ht⟩ := ih (isBlank c)
      exact ⟨t, by rw [List.cons_append, ← hs], ht⟩

theorem firstCommand_append_trailer (line : Line) :
    firstCommand line ++ trailer line = line ∧ StartsTrailer (trailer line) := by
  obtain ⟨t, hline, ht⟩ := exists_beforeCommandEnd_append false line
  have htrailer : trailer line = t := by
    have hdrop : (firstCommand line ++ t).drop (firstCommand line).length = t := List.drop_left
    rwa [firstCommand, ← hline] at hdrop
  rw [htrailer]
  exact ⟨hline.symm, ht⟩

example : firstCommand "set a#b # c; d".toList = "set a#b ".toList ∧
    trailer "set a#b # c; d".toList = "# c; d".toList := by
  decide

/-! ## Words around the end of a command -/

theorem words_append_of_endsAtBlank (h : EndsAtBlank s) (rest : List Char) :
    words (s ++ rest) = words s ++ words rest := by
  rcases List.eq_nil_or_concat' s with rfl | ⟨s, c, rfl⟩
  · rw [words_nil]
    rfl
  · have hc : isBlank c = true := h c (by simp)
    rw [words_append_blanks s (List.forall_mem_singleton.mpr hc), List.append_assoc,
      List.singleton_append, words_append_cons s hc]

/-- The last word of a text, or nothing if it ends with a blank. -/
theorem exists_append_unbroken (s : List Char) :
    ∃ lead v, s = lead ++ v ∧ EndsAtBlank lead ∧ Unbroken v := by
  induction s with
  | nil => exact ⟨[], [], rfl, nofun, nofun⟩
  | cons c s ih =>
    obtain ⟨lead, v, rfl, hlead, hv⟩ := ih
    cases lead with
    | nil =>
      cases hc : isBlank c with
      | true => exact ⟨[c], v, rfl, by simpa [EndsAtBlank] using hc, hv⟩
      | false => exact ⟨[], c :: v, rfl, nofun, List.forall_mem_cons.mpr ⟨hc, hv⟩⟩
    | cons d lead => exact ⟨c :: d :: lead, v, rfl, by simpa [EndsAtBlank] using hlead, hv⟩

/-- A word that starts with one of the characters that end commands. -/
def CutsOff (w : List Char) : Prop :=
  ∃ c t, w = c :: t ∧ (c = ';' ∨ c = '#')

/-- Where a command ends, its last word may go on with the first word behind it; all other words are
the same. -/
theorem exists_words_append (ht : StartsTrailer t) (hne : t ≠ []) (s : List Char) :
    ∃ front v w more, words s = front ++ words v ∧ words t = w :: more ∧
      words (s ++ t) = front ++ (v ++ w) :: more ∧
      Unbroken v ∧ CutsOff w := by
  obtain ⟨lead, v, rfl, hlead, hv⟩ := exists_append_unbroken s
  obtain ⟨c, t, rfl⟩ := List.exists_cons_of_ne_nil hne
  have hcut : c = ';' ∨ c = '#' := ht c rfl
  have hc : isBlank c = false := by rcases hcut with rfl | rfl <;> decide
  obtain ⟨w, rest, hsplit, hw, hrest⟩ := exists_token_append hc t
  have hvw : IsToken (v ++ w) :=
    ⟨by simp [hw.ne_nil], fun d hd => (List.mem_append.mp hd).elim (hv d) (hw.unbroken d)⟩
  refine ⟨words lead, v, w, words rest, words_append_of_endsAtBlank hlead v, ?_, ?_, hv, ?_⟩
  · rw [hsplit, words_append hw hrest]
  · rw [hsplit, List.append_assoc, words_append_of_endsAtBlank hlead, ← List.append_assoc,
      words_append hvw hrest]
  · obtain ⟨d, w, rfl⟩ := List.exists_cons_of_ne_nil hw.ne_nil
    cases hsplit
    exact ⟨c, w, rfl, hcut⟩

theorem words_unbroken_cases (hv : Unbroken v) : v = [] ∧ words v = [] ∨ words v = [v] := by
  by_cases hnil : v = []
  · exact .inl ⟨hnil, by rw [hnil, words_nil]⟩
  · exact .inr (IsToken.words_eq ⟨hnil, hv⟩)

theorem append_cutsOff_ne {word : List Char} (hw : CutsOff w) (h : ';' ∉ word ∧ '#' ∉ word) :
    v ++ w ≠ word := by
  rintro rfl
  obtain ⟨c, t, rfl, rfl | rfl⟩ := hw
  · exact h.1 (by simp)
  · exact h.2 (by simp)

namespace Shell

variable {P : List (List Char) → Prop} {opt : List Char → Prop} {word name letters : List Char}
  {line : Line}

/-! ## Options do not reach past the end of a command -/

theorem startsWithWord_append_cutsOff_iff (hw : CutsOff w) (h : ';' ∉ word ∧ '#' ∉ word) :
    StartsWithWord word (v ++ w) ↔ StartsWithWord word v := by
  obtain ⟨c, t, rfl, rfl | rfl⟩ := hw
  · exact startsWithWord_append_cons_iff h.1 (by decide)
  · exact startsWithWord_append_cons_iff h.2 (by decide)

theorem not_startsWithWord_nil (h : word ≠ []) : ¬StartsWithWord word [] := by
  rintro ⟨rest, he, -⟩
  simp [h] at he

theorem not_mem_dash_cons (hletters : ∀ c ∈ letters, isLetter c = true) :
    ';' ∉ '-' :: letters ∧ '#' ∉ '-' :: letters := by
  have hmark (c : Char) (hc : isLetter c = false) (hdash : c ≠ '-') : c ∉ '-' :: letters := by
    refine List.not_mem_cons_of_ne_of_not_mem hdash fun hm => ?_
    rw [hletters c hm] at hc
    cases hc
  exact ⟨hmark ';' (by decide) (by decide), hmark '#' (by decide) (by decide)⟩

/-- Words satisfy `P` exactly if those satisfy it that are left of them at the end of a command. -/
def StopsAtEnd (P : List (List Char) → Prop) : Prop :=
  ∀ front v w more, Unbroken v → CutsOff w → (P (front ++ (v ++ w) :: more) ↔ P (front ++ words v))

/-- The first word is an option and the second its name. -/
def Names (opt : List Char → Prop) (name : List Char) : List (List Char) → Prop
  | v :: w :: _ => opt v ∧ StartsWithWord name w
  | _ => False

/-- Neither the option nor its name goes on past the end of a command. -/
theorem stopsAtEnd_names (hopt : ∀ v w, CutsOff w → ¬opt (v ++ w)) (hne : name ≠ [])
    (hname : ';' ∉ name ∧ '#' ∉ name) : StopsAtEnd (Names opt name) := by
  intro front v w more hv hw
  match front with
  | [] =>
    have hshort : ¬Names opt name (words v) := by
      rcases words_unbroken_cases hv with ⟨-, hwords⟩ | hwords <;> rw [hwords] <;> exact id
    refine iff_of_false ?_ hshort
    cases more with
    | nil => exact id
    | cons x more => exact fun h => hopt v w hw h.1
  | [f] =>
    have hsecond := startsWithWord_append_cutsOff_iff (v := v) hw hname
    rcases words_unbroken_cases hv with ⟨rfl, hwords⟩ | hwords
    · rw [hwords]
      exact iff_of_false (fun h => not_startsWithWord_nil hne (hsecond.mp h.2)) id
    · rw [hwords]
      exact and_congr_right fun _ => hsecond
  | f :: g :: front => exact Iff.rfl

theorem beginsErrexit_iff_names :
    BeginsErrexit ws ↔ (∃ w ∈ ws.head?, IsErrexitWord w) ∨
      Names (· = "-o".toList) "errexit".toList ws := by
  constructor
  · rintro (h | h)
    · exact .inl ⟨_, rfl, h⟩
    · exact .inr ⟨rfl, h⟩
  · rintro (⟨w, hw, h⟩ | h)
    · cases ws with
      | nil => cases hw
      | cons v ws =>
        cases hw
        exact .flag h
    · match ws, h with
      | v :: w :: ws, ⟨hv, hw⟩ =>
        subst hv
        exact .named hw

theorem beginsPipefail_iff_names : BeginsPipefail ws ↔ Names IsOptionWord "pipefail".toList ws := by
  constructor
  · rintro ⟨hv, hw⟩
    exact ⟨hv, hw⟩
  · intro h
    match ws, h with
    | v :: w :: ws, ⟨hv, hw⟩ => exact .named hv hw

theorem isErrexitWord_append_cutsOff_iff (hw : CutsOff w) :
    IsErrexitWord (v ++ w) ↔ IsErrexitWord v := by
  refine exists_congr fun letters => and_congr_right fun hletters => and_congr_right fun _ => ?_
  exact startsWithWord_append_cutsOff_iff hw (not_mem_dash_cons hletters)

theorem not_isErrexitWord_nil : ¬IsErrexitWord [] := by
  rintro ⟨letters, -, -, h⟩
  exact not_startsWithWord_nil (List.cons_ne_nil _ _) h

theorem stopsAtEnd_beginsErrexit : StopsAtEnd BeginsErrexit := by
  intro front v w more hv hw
  have hnames : StopsAtEnd (Names (· = "-o".toList) "errexit".toList) :=
    stopsAtEnd_names (fun v w hw => append_cutsOff_ne hw (by decide)) isToken_errexit.ne_nil
      (by decide)
  have hnamed := hnames front v w more hv hw
  have hflag : (∃ x ∈ (front ++ (v ++ w) :: more).head?, IsErrexitWord x) ↔
      ∃ x ∈ (front ++ words v).head?, IsErrexitWord x := by
    have hword := isErrexitWord_append_cutsOff_iff (v := v) hw
    cases front with
    | cons f front => exact Iff.rfl
    | nil =>
      rcases words_unbroken_cases hv with ⟨rfl, hwords⟩ | hwords
      · simpa [hwords] using mt hword.mp not_isErrexitWord_nil
      · simpa [hwords] using hword
  rw [beginsErrexit_iff_names, beginsErrexit_iff_names, hflag, hnamed]

theorem stopsAtEnd_beginsPipefail : StopsAtEnd BeginsPipefail := by
  intro front v w more hv hw
  rw [beginsPipefail_iff_names, beginsPipefail_iff_names]
  refine stopsAtEnd_names ?_ isToken_pipefail.ne_nil (by decide) front v w more hv hw
  rintro v w hw ⟨letters, hletters, h⟩
  exact append_cutsOff_ne hw (not_mem_dash_cons (isLetter_of_mem_concat hletters)) h

/-! ## Options of a line -/

/-- The words from one place on satisfy `P`. -/
def Somewhere (P : List (List Char) → Prop) (ws : List (List Char)) : Prop :=
  ∃ l, l <:+ ws ∧ P l

/-- A `set` line with the words of an option behind its first command. -/
def SetsBeyond (P : List (List Char) → Prop) (line : Line) : Prop :=
  (words line).head? = some "set".toList ∧ Somewhere P (words (trailer line))

theorem sets_iff : Sets P line ↔ ∃ args, words line = "set".toList :: args ∧ Somewhere P args := by
  simp only [Sets, words_trim, Somewhere, exists_and_left]

theorem not_somewhere_nil (hnil : ¬P []) : ¬Somewhere P [] := by
  rintro ⟨l, hl, h⟩
  rw [List.suffix_nil] at hl
  exact hnil (hl ▸ h)

theorem somewhere_cons_iff : Somewhere P (w :: ws) ↔ P (w :: ws) ∨ Somewhere P ws := by
  simp only [Somewhere, List.suffix_cons_iff, or_and_right, exists_or, exists_eq_left]

/-- The induction goes from word to word up to the end of a command. -/
theorem somewhere_append_iff (hnil : ¬P []) (hP : StopsAtEnd P) (hv : Unbroken v) (hw : CutsOff w) :
    Somewhere P (front ++ (v ++ w) :: more) ↔
      Somewhere P (front ++ words v) ∨ Somewhere P more := by
  induction front with
  | nil =>
    have hlast : Somewhere P (words v) ↔ P (words v) := by
      rcases words_unbroken_cases hv with ⟨-, hwords⟩ | hwords
      · rw [hwords]
        exact iff_of_false (not_somewhere_nil hnil) hnil
      · rw [hwords, somewhere_cons_iff]
        exact or_iff_left (not_somewhere_nil hnil)
    have hhere := hP [] v w more hv hw
    rw [List.nil_append, List.nil_append] at hhere ⊢
    rw [somewhere_cons_iff, hhere, hlast]
  | cons f front ih =>
    have hhere := hP (f :: front) v w more hv hw
    rw [List.cons_append, List.cons_append] at hhere ⊢
    rw [somewhere_cons_iff, hhere, ih, somewhere_cons_iff, or_assoc]

/-- The word with the character that ends the command begins no option. -/
theorem somewhere_cutsOff_iff (hnil : ¬P []) (hP : StopsAtEnd P) (hw : CutsOff w) :
    Somewhere P (w :: more) ↔ Somewhere P more := by
  have h := @somewhere_append_iff [] w [] more P hnil hP nofun hw
  rw [words_nil] at h
  exact h.trans (or_iff_right (not_somewhere_nil hnil))

/-- An option on a line is begun by words of its first command, or by words behind it. -/
theorem sets_iff_firstCommand (hnil : ¬P []) (hP : StopsAtEnd P) :
    Sets P line ↔ Sets P (firstCommand line) ∨ SetsBeyond P line := by
  obtain ⟨hline, htrailer⟩ := firstCommand_append_trailer line
  by_cases hne : trailer line = []
  · rw [hne, List.append_nil] at hline
    have hbeyond : ¬SetsBeyond P line := by
      rintro ⟨-, h⟩
      rw [hne, words_nil] at h
      exact not_somewhere_nil hnil h
    rw [hline, or_iff_left hbeyond]
  · obtain ⟨front, v, w, more, hfirst, hrest, hwords, hv, hw⟩ :=
      exists_words_append htrailer hne (firstCommand line)
    rw [hline] at hwords
    rw [sets_iff, sets_iff, SetsBeyond, hwords, hfirst, hrest, somewhere_cutsOff_iff hnil hP hw]
    cases front with
    | nil =>
      -- The first word of the line goes on past the end of the command, so that it is not `set`.
      have hset : v ++ w ≠ "set".toList := append_cutsOff_ne hw (by decide)
      have hshort : ¬∃ args, words v = "set".toList :: args ∧ Somewhere P args := by
        rintro ⟨args, hargs, h⟩
        rcases words_unbroken_cases hv with ⟨-, hwords⟩ | hwords
        · simp [hwords] at hargs
        · rw [hwords, List.cons.injEq] at hargs
          exact not_somewhere_nil hnil (hargs.2 ▸ h)
      refine iff_of_false ?_ ?_
      · rintro ⟨args, hargs, -⟩
        exact hset (List.cons.inj hargs).1
      · rintro (h | ⟨hhead, -⟩)
        · exact hshort h
        · exact hset (Option.some.inj hhead)
    | cons f front =>
      have h := @somewhere_append_iff v w front more P hnil hP hv hw
      simp only [List.cons_append, List.cons.injEq, List.head?_cons, Option.some.injEq, and_assoc,
        exists_and_left, exists_eq_left', h, ← and_or_left]

end Shell

/-! ## Scripts of first commands -/

variable {P : List (List Char) → Prop}

/-- A carriage return at the end of a line is taken for a part of the line end. -/
theorem exists_mem_lines_flatMap_iff {Q : Line → Prop} {ls : List Line}
    (hQ : ∀ line, Q (line ++ ['\r']) ↔ Q line) (hls : ∀ line ∈ ls, '\n' ∉ line) :
    (∃ line ∈ lines (ls.flatMap fun line => line ++ ['\n']), Q line) ↔ ∃ line ∈ ls, Q line := by
  induction ls with
  | nil => simp
  | cons first ls ih =>
    obtain ⟨hfirst, hls⟩ := List.forall_mem_cons.mp hls
    have hone : (∃ line ∈ lines (first ++ ['\n']), Q line) ↔ Q first := by
      rcases lines_append_lf_cases hfirst with hline | ⟨first', rfl, hline⟩
      · simp [hline]
      · rw [hline]
        simp [hQ]
    rw [List.flatMap_cons, List.append_assoc, List.singleton_append, lines_append_cons_lf]
    simp only [List.mem_append, or_and_right, exists_or, List.exists_mem_cons_iff, hone, ih hls]

theorem exists_mem_lines_firstCommands_iff (script : Script) :
    (∃ line ∈ script.firstCommands.lines, Shell.Sets P line) ↔
      ∃ line ∈ script.lines, Shell.Sets P (firstCommand line) := by
  have hcr (line : Line) : Shell.Sets P (line ++ ['\r']) ↔ Shell.Sets P line := by
    rw [Shell.sets_iff, Shell.sets_iff,
      words_append_blanks line (List.forall_mem_singleton.mpr (by decide))]
  have hlf : ∀ line ∈ script.lines.map firstCommand, '\n' ∉ line := by
    rintro _ hm hlf
    obtain ⟨line, hline, rfl⟩ := List.mem_map.mp hm
    have hmem : '\n' ∈ firstCommand line ++ trailer line := List.mem_append_left _ hlf
    rw [(firstCommand_append_trailer line).1] at hmem
    exact lf_not_mem_of_mem_lines line hline hmem
  have h := exists_mem_lines_flatMap_iff hcr hlf
  rw [List.flatMap_map] at h
  simp only [List.mem_map, exists_exists_and_eq_and] at h
  exact h

theorem exists_sets_iff (hnil : ¬P []) (hP : Shell.StopsAtEnd P) (script : Script) :
    (∃ line ∈ script.lines, Shell.Sets P line) ↔
      (∃ line ∈ script.lines, Shell.Sets P (firstCommand line)) ∨
        ∃ line ∈ script.lines, Shell.SetsBeyond P line := by
  rw [← exists_or]
  exact exists_congr fun line => by rw [Shell.sets_iff_firstCommand hnil hP, and_or_left]

/-- A check that asks for an option gives the same findings on the first commands if one of them
sets the option, or if the option is on no `set` line behind its first command; it never has fewer
findings there. -/
theorem findings_firstCommands {sets : List Char → Bool} {findings : Script → List Finding}
    {f : Finding}
    (hsets : ∀ line, sets line = true ↔ Shell.Sets P line) (hnil : ¬P []) (hP : Shell.StopsAtEnd P)
    (hfindings : ∀ script, findings script = if script.lines.any sets then [] else [f])
    (script : Script) :
    (findings script.firstCommands = findings script ↔
      (∃ line ∈ script.lines, Shell.Sets P (firstCommand line)) ∨
        ∀ line ∈ script.lines, ¬Shell.SetsBeyond P line) ∧
    (findings script).Sublist (findings script.firstCommands) := by
  have hany (script : Script) : script.lines.any sets = true ↔
      ∃ line ∈ script.lines, Shell.Sets P line := by
    simp only [List.any_eq_true, hsets]
  have hfirst : script.firstCommands.lines.any sets = true ↔
      ∃ line ∈ script.lines, Shell.Sets P (firstCommand line) :=
    (hany _).trans (exists_mem_lines_firstCommands_iff script)
  have hall := (hany script).trans (exists_sets_iff hnil hP script)
  have hnone : (∀ line ∈ script.lines, ¬Shell.SetsBeyond P line) ↔
      ¬∃ line ∈ script.lines, Shell.SetsBeyond P line := by
    simp only [not_exists, not_and]
  rw [hfindings, hfindings, hnone]
  by_cases hin : ∃ line ∈ script.lines, Shell.Sets P (firstCommand line)
  · have hkept := hfirst.mpr hin
    have hset := hall.mpr (.inl hin)
    simp [hkept, hset, hin]
  · have hlost : script.firstCommands.lines.any sets = false :=
      Bool.eq_false_iff.mpr (mt hfirst.mp hin)
    by_cases hbeyond : ∃ line ∈ script.lines, Shell.SetsBeyond P line
    · have hset := hall.mpr (.inr hbeyond)
      simp [hlost, hset, hin, hbeyond]
    · have hunset : script.lines.any sets = false :=
        Bool.eq_false_iff.mpr fun h => (hall.mp h).elim hin hbeyond
      simp [hlost, hunset, hbeyond]

/-- The checks of the options give the same findings on the first commands alone exactly if a first
command sets the option, or no `set` line has the words for it behind its first command. No finding
is lost on the first commands. -/
theorem optionFindings_firstCommands (script : Script) :
    ((failFastFindings script.firstCommands = failFastFindings script ↔
      (∃ line ∈ script.lines, Shell.Sets Shell.BeginsErrexit (firstCommand line)) ∨
        ∀ line ∈ script.lines, ¬Shell.SetsBeyond Shell.BeginsErrexit line) ∧
      (failFastFindings script).Sublist (failFastFindings script.firstCommands)) ∧
    (pipefailFindings script.firstCommands = pipefailFindings script ↔
      (∃ line ∈ script.lines, Shell.Sets Shell.BeginsPipefail (firstCommand line)) ∨
        ∀ line ∈ script.lines, ¬Shell.SetsBeyond Shell.BeginsPipefail line) ∧
      (pipefailFindings script).Sublist (pipefailFindings script.firstCommands) :=
  have herrexit (line : Line) : Shell.setsErrexit line = true ↔
      Shell.Sets Shell.BeginsErrexit line :=
    Shell.setsErrexit_iff
  have hpipefail (line : Line) : Shell.setsPipefail line = true ↔
      Shell.Sets Shell.BeginsPipefail line :=
    Shell.setsPipefail_iff
  ⟨findings_firstCommands herrexit nofun Shell.stopsAtEnd_beginsErrexit (fun _ => rfl) script,
    findings_firstCommands hpipefail nofun Shell.stopsAtEnd_beginsPipefail (fun _ => rfl) script⟩

/-- Both options are in a comment behind another option. -/
def commentedScript : Script where
  path := "/a.sh"
  extension := "sh"
  text := "#!/bin/bash\n# Deploys.\nset -u # set -eo pipefail\n".toList

/-- Both options are those of another command. -/
def chainedScript : Script :=
  { commentedScript with text :=
    "#!/bin/bash\n# Deploys.\nset -u; bash -eo pipefail run.sh\n".toList }

/-- An option in a comment, or of another command, is enough for the checks; without it they
warn. -/
theorem not_findings_firstCommands :
    (¬∀ script : Script, failFastFindings script.firstCommands = failFastFindings script ∧
      pipefailFindings script.firstCommands = pipefailFindings script) ∧
    ∀ script ∈ [commentedScript, chainedScript],
      failFastFindings script = [] ∧ (failFastFindings script.firstCommands).length = 1 ∧
        pipefailFindings script = [] ∧ (pipefailFindings script.firstCommands).length = 1 := by
  have hscripts : ∀ script ∈ [commentedScript, chainedScript],
      failFastFindings script = [] ∧ (failFastFindings script.firstCommands).length = 1 ∧
        pipefailFindings script = [] ∧ (pipefailFindings script.firstCommands).length = 1 := by
    simp only [List.forall_mem_cons]
    decide +kernel
  refine ⟨fun hsame => ?_, hscripts⟩
  obtain ⟨hnone, hone, -⟩ := hscripts commentedScript (by simp)
  rw [(hsame commentedScript).1, hnone] at hone
  cases hone

end ScriptLint
