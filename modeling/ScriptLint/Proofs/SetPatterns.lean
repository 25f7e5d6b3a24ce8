import Mathlib.Data.List.Basic
import ScriptLint.Proofs.Patterns
import ScriptLint.Proofs.SetWords

/-!
The patterns that describe `set` commands with an option. A pattern may give up any part of what it
took and go on from there; still it comes through only where a word starts, and only with all
letters of a flag. Main statements: `occurs_setPattern_iff`, a pattern behind `set` occurs in a line
if a word after `set` starts what it can take, `errexitPattern_occurs_iff` and
`pipefailPattern_occurs_iff`, and `optionFindings_words`, what the checks of the options recognise.
-/

namespace ScriptLint

namespace Shell

/-- The pattern `^set\s+(?:\S+\s+)*`, with a pattern for the option behind it. -/
def setPattern (option : Pattern) : Pattern :=
  .start ++ (.text "set".toList ++ (.oneOrMore isBlank ++
    (.many (.oneOrMore (fun c => !isBlank c) ++ .oneOrMore isBlank) ++ option)))

/-- The pattern `-[A-Za-z]*e[A-Za-z]*`. -/
def errexitFlagPattern : Pattern :=
  .text ['-'] ++ (.many (.one isLetter) ++ (.text ['e'] ++ .many (.one isLetter)))

/-- The pattern `\s+name`, with a pattern for the option before it. -/
def namedPattern (option : Pattern) (name : List Char) : Pattern :=
  option ++ (.oneOrMore isBlank ++ .text name)

/-- The pattern `^set\s+(?:\S+\s+)*(?:-[A-Za-z]*e[A-Za-z]*|-o\s+errexit)\b`. -/
def errexitPattern : Pattern :=
  setPattern (.either errexitFlagPattern (namedPattern (.text "-o".toList) "errexit".toList) ++
    .boundary)

/-- The pattern `^set\s+(?:\S+\s+)*-[A-Za-z]*o\s+pipefail\b`. -/
def pipefailPattern : Pattern :=
  setPattern (namedPattern (.text ['-'] ++ (.many (.one isLetter) ++ .text ['o']))
    "pipefail".toList ++ .boundary)

variable {p : List Char → Bool} {option : Pattern} {c d : Char}
  {before taken after s t front rest letters : List Char}

/-! ## From word to word -/

theorem endsAtBlank_nil : EndsAtBlank [] := by
  simp [EndsAtBlank]

theorem endsAtBlank_singleton : EndsAtBlank [c] ↔ isBlank c = true := by
  simp [EndsAtBlank]

theorem endsAtBlank_cons_cons : EndsAtBlank (c :: d :: s) ↔ EndsAtBlank (d :: s) := by
  simp [EndsAtBlank]

theorem EndsAtBlank.append (hs : EndsAtBlank s) (ht : EndsAtBlank t) : EndsAtBlank (s ++ t) := by
  intro c hc
  rw [List.getLast?_append, Option.mem_def, Option.or_eq_some_iff] at hc
  rcases hc with hc | ⟨-, hc⟩
  · exact ht c hc
  · exact hs c hc

theorem endsAtBlank_append_gap {gap : List Char} (hne : gap ≠ []) (hgap : Blanks gap)
    (s : List Char) :
    EndsAtBlank (s ++ gap) := by
  intro c hc
  rw [List.getLast?_append, List.getLast?_eq_some_getLast hne, Option.some_or] at hc
  exact hgap c (List.mem_of_getLast? ((List.getLast?_eq_some_getLast hne).trans hc))

/-- A text that starts with a word and ends with a blank is that word, blanks, and a text of the
same kind. -/
theorem exists_word_gap (hstops : Stops isBlank s) (hends : EndsAtBlank s) (hne : s ≠ []) :
    ∃ w gap t, s = w ++ (gap ++ t) ∧ IsToken w ∧ gap ≠ [] ∧ Blanks gap ∧ Stops isBlank t ∧
      EndsAtBlank t := by
  obtain ⟨c, s, rfl⟩ := List.exists_cons_of_ne_nil hne
  obtain ⟨w, rest, hsplit, hw, hrest⟩ := exists_token_append (stops_cons.mp hstops) s
  rw [hsplit] at hends ⊢
  obtain ⟨gap, hgap, he, ht⟩ := exists_blanks_trimStart rest
  cases rest with
  | nil =>
    -- Without a blank behind it, the word would have the blank at the end of the text.
    rw [List.append_nil] at hends
    have hlast := hends _ (List.getLast?_eq_some_getLast hw.ne_nil)
    rw [hw.unbroken _ (List.getLast_mem hw.ne_nil)] at hlast
    cases hlast
  | cons d rest =>
    refine ⟨w, gap, trimStart (d :: rest), by rw [← he], hw, ?_, hgap, ht, ?_⟩
    · rintro rfl
      rw [List.nil_append] at he
      rw [← he] at ht
      have hd := endsWord_cons.mp hrest
      rw [stops_cons.mp ht] at hd
      cases hd
    · intro e hlast
      refine hends e ?_
      rw [he, ← List.append_assoc, List.getLast?_append, Option.mem_def.mp hlast]
      rfl

/-- Words, each with blanks behind it, can be taken up to the starts of words and no further. -/
theorem takes_words_iff :
    (Pattern.many (.oneOrMore (fun c => !isBlank c) ++ .oneOrMore isBlank)).Takes before
      taken after ↔
      Stops isBlank taken ∧ EndsAtBlank taken := by
  constructor
  · intro h
    change Pattern.Repeats (Pattern.Takes (.oneOrMore (fun c => !isBlank c) ++ .oneOrMore isBlank))
      before taken after at h
    induction h with
    | none => exact ⟨stops_nil, endsAtBlank_nil⟩
    | more first _ ih =>
      obtain ⟨w, gap, rfl, hw, hgap⟩ := first
      obtain ⟨hwNe, hvisible⟩ := Pattern.takes_oneOrMore.mp hw
      obtain ⟨hgapNe, hblanks⟩ := Pattern.takes_oneOrMore.mp hgap
      obtain ⟨c, w, rfl⟩ := List.exists_cons_of_ne_nil hwNe
      exact ⟨stops_cons.mpr (by simpa using hvisible c List.mem_cons_self),
        EndsAtBlank.append (endsAtBlank_append_gap hgapNe hblanks _) ih.2⟩
  · rintro ⟨hstops, hends⟩
    induction hn : taken.length using Nat.strongRecOn generalizing before taken with
    | ind n ih =>
      by_cases hne : taken = []
      · subst hne
        exact .none
      · obtain ⟨w, gap, t, rfl, hw, hgapNe, hgap, ht, htEnds⟩ := exists_word_gap hstops hends hne
        rw [← List.append_assoc]
        refine .more ⟨w, gap, rfl, Pattern.takes_oneOrMore.mpr ⟨hw.ne_nil, fun c hc => ?_⟩,
          Pattern.takes_oneOrMore.mpr ⟨hgapNe, hgap⟩⟩ (ih t.length ?_ ht htEnds rfl)
        · simp [hw.unbroken c hc]
        · have hpos := List.length_pos_iff.mpr hw.ne_nil
          simp only [List.length_append] at hn
          omega

/-- What is looked for at the starts of words is found behind words with blanks after them. -/
theorem anyWordStart_eq_true_iff {between : Bool} :
    anyWordStart p between s = true ↔
      ∃ front c t, s = front ++ c :: t ∧ (front = [] → between = true) ∧ EndsAtBlank front ∧
        isBlank c = false ∧
        p (c :: t) = true := by
  induction s generalizing between with
  | nil => simp [anyWordStart]
  | cons d s ih =>
    rw [anyWordStart, Bool.or_eq_true, ih]
    constructor
    · rintro (h | ⟨front, c, t, rfl, hfront, hends, hc, h⟩)
      · obtain ⟨h, hp⟩ := Bool.and_eq_true_iff.mp h
        obtain ⟨hbetween, hd⟩ := Bool.and_eq_true_iff.mp h
        exact ⟨[], d, s, rfl, fun _ => hbetween, endsAtBlank_nil, by simpa using hd, hp⟩
      · refine ⟨d :: front, c, t, rfl, by simp, ?_, hc, h⟩
        cases front with
        | nil => exact endsAtBlank_singleton.mpr (hfront rfl)
        | cons e front => exact endsAtBlank_cons_cons.mpr hends
    · rintro ⟨front, c, t, hs, hfront, hends, hc, h⟩
      cases front with
      | nil =>
        cases hs
        exact .inl (by simp [hfront rfl, hc, h])
      | cons e front =>
        cases hs
        refine .inr ⟨front, c, t, rfl, ?_, ?_, hc, h⟩
        · rintro rfl
          exact endsAtBlank_singleton.mp hends
        · cases front with
          | nil => exact endsAtBlank_nil
          | cons e front => exact endsAtBlank_cons_cons.mp hends

/-- A pattern behind `set` occurs in a line exactly if it can take something from the start of a
word after `set`. -/
theorem occurs_setPattern_iff
    (hoption : ∀ before s, (∃ taken after, s = taken ++ after ∧ option.Takes before taken after) ↔
      p s = true)
    (hp : ∀ s, p s = true → ∃ c t, s = c :: t ∧ isBlank c = false) {line : Line} :
    (setPattern option).Occurs (trim line) ↔ setsOption p line = true := by
  rw [setsOption, Option.any_eq_true, setPattern, Pattern.occurs_start_append]
  constructor
  · rintro ⟨_, after, hline, _, _, rfl, rfl, gap, _, rfl, hgap, front, taken, rfl, hfront, htaken⟩
    obtain ⟨hne, hgap⟩ := Pattern.takes_oneOrMore.mp hgap
    obtain ⟨hstops, hends⟩ := takes_words_iff.mp hfront
    have hp' := (hoption _ _).mp ⟨taken, after, rfl, htaken⟩
    obtain ⟨c, t, hs, hc⟩ := hp _ hp'
    refine ⟨front ++ (taken ++ after), afterKeyword_eq_some_iff.mpr ⟨gap, hne, hgap, ?_, ?_⟩, ?_⟩
    · simp only [hline, List.append_assoc]
    · cases front with
      | nil => exact hs ▸ stops_cons.mpr hc
      | cons d front => exact stops_cons.mpr (stops_cons.mp hstops)
    · rw [hs] at hp' ⊢
      exact anyWordStart_eq_true_iff.mpr ⟨front, c, t, rfl, fun _ => rfl, hends, hc, hp'⟩
  · rintro ⟨rest, hread, h⟩
    obtain ⟨gap, hne, hgap, hline, hrest⟩ := afterKeyword_eq_some_iff.mp hread
    obtain ⟨front, c, t, rfl, -, hends, -, h⟩ := anyWordStart_eq_true_iff.mp h
    obtain ⟨taken, after, hs, htaken⟩ := (hoption ("set".toList ++ gap ++ front) _).mpr h
    have hfront : Stops isBlank front := by
      cases front with
      | nil => exact stops_nil
      | cons d front => exact stops_cons.mpr (stops_cons.mp hrest)
    refine ⟨"set".toList ++ (gap ++ (front ++ taken)), after, ?_, _, _, rfl, rfl, gap, _, rfl,
      Pattern.takes_oneOrMore.mpr ⟨hne, hgap⟩, front, taken, rfl, takes_words_iff.mpr ⟨hfront,
        hends⟩, htaken⟩
    simp only [hline, hs, List.append_assoc]

/-! ## Options -/

theorem takes_errexitFlagPattern :
    errexitFlagPattern.Takes before taken after ↔
      ∃ letters, taken = '-' :: letters ∧ (∀ c ∈ letters, isLetter c = true) ∧ 'e' ∈ letters := by
  constructor
  · rintro ⟨_, _, rfl, rfl, front, _, rfl, hfront, _, rest, rfl, rfl, hrest⟩
    refine ⟨front ++ 'e' :: rest, rfl,
      List.forall_mem_append.mpr ⟨Pattern.takes_many_one.mp hfront, ?_⟩, by simp⟩
    exact List.forall_mem_cons.mpr ⟨rfl, Pattern.takes_many_one.mp hrest⟩
  · rintro ⟨letters, rfl, hletters, he⟩
    obtain ⟨front, rest, rfl⟩ := List.append_of_mem he
    obtain ⟨hfront, hrest⟩ := List.forall_mem_append.mp hletters
    exact ⟨['-'], _, rfl, rfl, front, _, rfl, Pattern.takes_many_one.mpr hfront, ['e'], rest,
      rfl, rfl,
      Pattern.takes_many_one.mpr (List.forall_mem_cons.mp hrest).2⟩

theorem takes_namedPattern {name : List Char} :
    (namedPattern option name).Takes before taken after ↔
      ∃ v gap, taken = v ++ (gap ++ name) ∧ gap ≠ [] ∧ Blanks gap ∧
        option.Takes before v (gap ++ name ++ after) := by
  constructor
  · rintro ⟨v, _, rfl, hv, gap, _, rfl, hgap, rfl⟩
    obtain ⟨hne, hgap⟩ := Pattern.takes_oneOrMore.mp hgap
    exact ⟨v, gap, rfl, hne, hgap, hv⟩
  · rintro ⟨v, gap, rfl, hne, hgap, hv⟩
    exact ⟨v, _, rfl, hv, gap, name, rfl, Pattern.takes_oneOrMore.mpr ⟨hne, hgap⟩, rfl⟩

theorem takes_optionPattern :
    (Pattern.text ['-'] ++ (.many (.one isLetter) ++ .text ['o'])).Takes before taken after ↔
      IsOptionWord taken := by
  constructor
  · rintro ⟨_, _, rfl, rfl, letters, _, rfl, hletters, rfl⟩
    exact ⟨letters, Pattern.takes_many_one.mp hletters, rfl⟩
  · rintro ⟨letters, hletters, rfl⟩
    exact ⟨['-'], _, rfl, rfl, letters, ['o'], rfl, Pattern.takes_many_one.mpr hletters, rfl⟩

theorem endsInWord_errexitFlagPattern : errexitFlagPattern.EndsInWord := by
  intro before taken after h
  obtain ⟨letters, rfl, hletters, he⟩ := takes_errexitFlagPattern.mp h
  rcases List.eq_nil_or_concat' letters with rfl | ⟨letters, c, rfl⟩
  · cases he
  · refine ⟨'-' :: letters, c, rfl, isWord_of_isNamePart ?_⟩
    simp [isNamePart, isNameStart, hletters c (by simp)]

theorem endsInWord_namedPattern {c : Char} (hc : isWord c = true) :
    (namedPattern option (s ++ [c])).EndsInWord := by
  intro before taken after h
  obtain ⟨v, gap, rfl, -⟩ := takes_namedPattern.mp h
  exact ⟨v ++ (gap ++ s), c, by simp, hc⟩

/-- What the pattern of a flag can take up to a boundary, it takes with the whole run of letters. -/
theorem exists_takes_errexitFlagPattern (before : List Char) :
    (∃ taken after, s = taken ++ after ∧ errexitFlagPattern.Takes before taken after ∧
      Stops isWord after) ↔
      IsErrexitWord s := by
  simp only [takes_errexitFlagPattern]
  constructor
  · rintro ⟨_, after, rfl, ⟨letters, rfl, hletters, he⟩, hstops⟩
    exact ⟨letters, hletters, he, after, rfl, hstops⟩
  · rintro ⟨letters, hletters, he, after, rfl, hstops⟩
    exact ⟨_, after, rfl, ⟨letters, rfl, hletters, he⟩, hstops⟩

theorem exists_takes_namedPattern (before : List Char) {name : List Char} :
    (∃ taken after, s = taken ++ after ∧ (namedPattern option name).Takes before taken after ∧
      Stops isWord after) ↔
      ∃ v gap t, gap ≠ [] ∧ Blanks gap ∧ s = v ++ (gap ++ t) ∧ option.Takes before v (gap ++ t) ∧
        StartsWithWord name t := by
  simp only [takes_namedPattern]
  constructor
  · rintro ⟨_, after, rfl, ⟨v, gap, rfl, hne, hgap, hv⟩, hstops⟩
    rw [List.append_assoc] at hv
    exact ⟨v, gap, name ++ after, hne, hgap,
      by simp only [List.append_assoc], hv, after, rfl, hstops⟩
  · rintro ⟨v, gap, _, hne, hgap, rfl, hv, after, rfl, hstops⟩
    rw [← List.append_assoc] at hv
    exact ⟨_, after, by simp only [List.append_assoc], ⟨v, gap, rfl, hne, hgap, hv⟩, hstops⟩

theorem isErrexitName_iff_takes (before s : List Char) :
    isErrexitName s = true ↔
      ∃ taken after, s = taken ++ after ∧
        (namedPattern (.text "-o".toList) "errexit".toList).Takes before taken after ∧
          Stops isWord after := by
  rw [exists_takes_namedPattern, isErrexitName_iff]
  constructor
  · rintro ⟨gap, t, hne, hgap, hs, ht⟩
    exact ⟨_, gap, t, hne, hgap, hs, rfl, ht⟩
  · rintro ⟨_, gap, t, hne, hgap, hs, rfl, ht⟩
    exact ⟨gap, t, hne, hgap, hs, ht⟩

theorem isPipefail_iff_takes (before s : List Char) :
    isPipefail s = true ↔
      ∃ taken after, s = taken ++ after ∧
        (namedPattern (.text ['-'] ++ (.many (.one isLetter) ++ .text ['o']))
          "pipefail".toList).Takes before taken
          after ∧ Stops isWord after := by
  rw [exists_takes_namedPattern, isPipefail_iff]
  simp only [takes_optionPattern]
  constructor
  · rintro ⟨v, hv, gap, t, hne, hgap, hs, ht⟩
    exact ⟨v, gap, t, hne, hgap, hs, hv, ht⟩
  · rintro ⟨v, gap, t, hne, hgap, hs, hv, ht⟩
    exact ⟨v, hv, gap, t, hne, hgap, hs, ht⟩

theorem errexitPattern_occurs_iff {line : Line} : errexitPattern.Occurs (trim line) ↔
    setsErrexit line = true := by
  refine occurs_setPattern_iff (fun before s => ?_) (fun s h => ?_)
  · have hnamed : (namedPattern (.text "-o".toList) "errexit".toList).EndsInWord :=
      endsInWord_namedPattern (s := "errexi".toList) (by decide)
    have hends := Pattern.endsInWord_either endsInWord_errexitFlagPattern hnamed
    rw [Bool.or_eq_true, isErrexitFlag_iff, ← exists_takes_errexitFlagPattern before,
      isErrexitName_iff_takes before]
    simp only [Pattern.takes_append_boundary hends, Pattern.takes_either, or_and_right, and_or_left,
      exists_or]
  · rcases Bool.or_eq_true_iff.mp h with h | h
    · obtain ⟨letters, -, -, rest, rfl, -⟩ := isErrexitFlag_iff.mp h
      exact ⟨'-', letters ++ rest, rfl, by decide⟩
    · obtain ⟨gap, t, -, -, rfl, -⟩ := isErrexitName_iff.mp h
      exact ⟨'-', 'o' :: (gap ++ t), rfl, by decide⟩

theorem pipefailPattern_occurs_iff {line : Line} : pipefailPattern.Occurs (trim line) ↔
    setsPipefail line = true := by
  refine occurs_setPattern_iff (fun before s => ?_) (fun s h => ?_)
  · have hends :
        (namedPattern (.text ['-'] ++ (.many (.one isLetter) ++ .text ['o']))
          "pipefail".toList).EndsInWord :=
      endsInWord_namedPattern (s := "pipefai".toList) (by decide)
    rw [isPipefail_iff_takes before]
    simp only [Pattern.takes_append_boundary hends]
  · obtain ⟨_, ⟨letters, -, rfl⟩, gap, t, -, -, rfl, -⟩ := isPipefail_iff.mp h
    exact ⟨'-', _, rfl, by decide⟩

end Shell

theorem warns_unless {b : Bool} {f : Finding} {findings : List Finding}
    (h : findings = if b then [] else [f]) :
    (findings = [] ↔ b = true) ∧ (findings = [] ∨ findings = [f]) := by
  cases b with
  | false => simp [h]
  | true => simp [h]

/-- The checks of the options find nothing in the scripts with a line in which their pattern occurs,
and warn once of each other script. The pattern occurs exactly in the `set` lines that have a word,
or two words, for the option. -/
theorem optionFindings_words (script : Script) :
    (failFastFindings script = [] ↔
      ∃ line ∈ script.lines, Shell.errexitPattern.Occurs (trim line)) ∧
    (failFastFindings script = [] ↔ ∃ line ∈ script.lines, Shell.Sets Shell.BeginsErrexit line) ∧
    (failFastFindings script = [] ∨
      failFastFindings script = [Check.failFast.warn "missing 'set -e' or 'set -o errexit'"]) ∧
    (pipefailFindings script = [] ↔
      ∃ line ∈ script.lines, Shell.pipefailPattern.Occurs (trim line)) ∧
    (pipefailFindings script = [] ↔ ∃ line ∈ script.lines, Shell.Sets Shell.BeginsPipefail line) ∧
    (pipefailFindings script = [] ∨
      pipefailFindings script = [Check.pipefail.warn "missing 'set -o pipefail'"]) ∧
    ∀ line, (Shell.errexitPattern.Occurs (trim line) ↔ Shell.Sets Shell.BeginsErrexit line) ∧
      (Shell.pipefailPattern.Occurs (trim line) ↔ Shell.Sets Shell.BeginsPipefail line) := by
  have hpatterns (line : Line) :
      (Shell.errexitPattern.Occurs (trim line) ↔ Shell.Sets Shell.BeginsErrexit line) ∧
      (Shell.pipefailPattern.Occurs (trim line) ↔ Shell.Sets Shell.BeginsPipefail line) :=
    ⟨Shell.errexitPattern_occurs_iff.trans Shell.setsErrexit_iff,
      Shell.pipefailPattern_occurs_iff.trans Shell.setsPipefail_iff⟩
  obtain ⟨herrexit, hfailFast⟩ := warns_unless (rfl : failFastFindings script = _)
  obtain ⟨hpipefail, honce⟩ := warns_unless (rfl : pipefailFindings script = _)
  simp only [List.any_eq_true, Shell.setsErrexit_iff, Shell.setsPipefail_iff] at herrexit hpipefail
  simp only [hpatterns, implies_true, and_true]
  exact ⟨herrexit, herrexit, hfailFast, hpipefail, hpipefail, honce⟩

end ScriptLint
