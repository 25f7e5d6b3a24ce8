import ScriptLint.Check.Options
import ScriptLint.Proofs.LineGrammar

/-!
The `set` commands of a script, word by word. The readers of options work on the text of a line;
what they accept is told by the words of the line alone. Main statements: `words_eq_cons_iff`, how a
text starts with its first word, `anyWordStart_iff` and `setsOption_iff`, that options are looked
for from word to word, and `setsErrexit_iff` and `setsPipefail_iff`.
-/

namespace ScriptLint

/-! ## Words -/

/-- The words of a text: what stands between its white space. -/
def words (s : List Char) : List (List Char) :=
  (s.splitOnP isBlank).filter fun w => !w.isEmpty

/-- No white space. -/
def Unbroken (s : List Char) : Prop :=
  ∀ c ∈ s, isBlank c = false

instance (s : List Char) : Decidable (Unbroken s) :=
  decidable_of_iff (s.all fun c => !isBlank c) (by simp [Unbroken])

/-- A text that is one word. -/
structure IsToken (w : List Char) : Prop where
  ne_nil : w ≠ []
  unbroken : Unbroken w

/-- The text is at its end, or a blank comes. -/
def EndsWord (s : List Char) : Prop :=
  Stops (fun c => !isBlank c) s

/-- The text ends with a blank, or is empty: what comes after it starts a word. -/
def EndsAtBlank (s : List Char) : Prop :=
  ∀ c ∈ s.getLast?, isBlank c = true

variable {s w rest gap : List Char} {ws : List (List Char)} {c : Char}

theorem endsWord_cons : EndsWord (c :: s) ↔ isBlank c = true := by
  simp [EndsWord, stops_cons]

theorem EndsWord.stops_isWord (h : EndsWord rest) : Stops isWord rest := by
  cases rest with
  | nil => exact stops_nil
  | cons c rest => exact stops_cons.mpr (isWord_eq_false_of_isBlank (endsWord_cons.mp h))

theorem words_nil : words [] = [] := by
  simp [words]

/-- Each blank separates words. -/
theorem words_append_cons (s : List Char) (hc : isBlank c = true) (rest : List Char) :
    words (s ++ c :: rest) = words s ++ words rest := by
  rw [words, List.splitOnP_append_cons s rest hc, List.filter_append]
  rfl

theorem words_blanks_append (hgap : Blanks gap) (s : List Char) : words (gap ++ s) = words s := by
  induction gap with
  | nil => rfl
  | cons c gap ih =>
    obtain ⟨hc, hgap⟩ := List.forall_mem_cons.mp hgap
    have hword := words_append_cons [] hc (gap ++ s)
    rw [words_nil, List.nil_append, List.nil_append] at hword
    rw [List.cons_append, hword, ih hgap]

theorem words_append_blanks (s : List Char) (hgap : Blanks gap) : words (s ++ gap) = words s := by
  cases gap with
  | nil => rw [List.append_nil]
  | cons c gap =>
    obtain ⟨hc, hgap⟩ := List.forall_mem_cons.mp hgap
    have hnil := words_blanks_append hgap []
    rw [List.append_nil, words_nil] at hnil
    rw [words_append_cons s hc, hnil, List.append_nil]

/-- The blanks at the ends of a text are in none of its words. -/
theorem words_trim (s : List Char) : words (trim s) = words s := by
  obtain ⟨lead, hlead, hs, -⟩ := exists_blanks_trimStart s
  obtain ⟨trail, htrail, ht⟩ := exists_blanks_trimEnd (trimStart s)
  have hstart : words (trimStart s) = words s := by
    rw [← words_blanks_append hlead, ← hs]
  rw [← hstart, ht, words_append_blanks _ htrail]
  rfl

theorem IsToken.words_eq (hw : IsToken w) : words w = [w] := by
  rw [words, List.splitOnP_eq_singleton hw.unbroken]
  simp [hw.ne_nil]

theorem words_append (hw : IsToken w) (hrest : EndsWord rest) :
    words (w ++ rest) = w :: words rest := by
  cases rest with
  | nil => rw [List.append_nil, hw.words_eq, words_nil]
  | cons c rest =>
    have hc := endsWord_cons.mp hrest
    have hskip := words_blanks_append (List.forall_mem_singleton.mpr hc) rest
    rw [words_append_cons w hc, hw.words_eq, ← hskip]
    rfl

theorem exists_unbroken_append (s : List Char) :
    ∃ w rest, s = w ++ rest ∧ Unbroken w ∧ EndsWord rest := by
  refine ⟨s.takeWhile fun c => !isBlank c, s.dropWhile fun c => !isBlank c,
    List.takeWhile_append_dropWhile.symm, ?_,
    stops_dropWhile _ s⟩
  intro c hc
  simpa using List.mem_takeWhile_imp hc

/-- A text that does not start with a blank starts with a word. -/
theorem exists_token_append (hc : isBlank c = false) (s : List Char) :
    ∃ w rest, c :: s = w ++ rest ∧ IsToken w ∧ EndsWord rest := by
  obtain ⟨w, rest, hs, hw, hrest⟩ := exists_unbroken_append (c :: s)
  refine ⟨w, rest, hs, ⟨?_, hw⟩, hrest⟩
  rintro rfl
  rw [List.nil_append] at hs
  rw [← hs, endsWord_cons, hc] at hrest
  cases hrest

/-- How a text starts with its first word. -/
theorem words_eq_cons_iff :
    words s = w :: ws ↔
      ∃ gap rest, s = gap ++ (w ++ rest) ∧ Blanks gap ∧ IsToken w ∧ EndsWord rest ∧
        words rest = ws := by
  constructor
  · intro h
    obtain ⟨gap, hgap, hs, hstops⟩ := exists_blanks_trimStart s
    rw [hs, words_blanks_append hgap] at h
    cases ht : trimStart s with
    | nil =>
      rw [ht, words_nil] at h
      cases h
    | cons c t =>
      rw [ht] at hstops h hs
      obtain ⟨w', rest, hct, hw, hrest⟩ := exists_token_append (stops_cons.mp hstops) t
      rw [hct, words_append hw hrest, List.cons.injEq] at h
      obtain ⟨rfl, hws⟩ := h
      exact ⟨gap, rest, by rw [← hct, ← hs], hgap, hw, hrest, hws⟩
  · rintro ⟨gap, rest, rfl, hgap, hw, hrest, rfl⟩
    rw [words_blanks_append hgap, words_append hw hrest]

/-! ## From word to word -/

/-- What comes after the word in the middle of which the text starts. -/
def afterWord (s : List Char) : List Char :=
  s.dropWhile fun c => !isBlank c

theorem words_cons (hc : isBlank c = false) (s : List Char) :
    ∃ w, words (c :: s) = w :: words (afterWord s) := by
  obtain ⟨w, rest, rfl, hw, hrest⟩ := exists_unbroken_append s
  have hafter : afterWord (w ++ rest) = rest :=
    dropWhile_append_of_stops (fun c hc => by simp [hw c hc]) hrest
  refine ⟨c :: w, ?_⟩
  rw [hafter]
  exact words_append ⟨List.cons_ne_nil c w, List.forall_mem_cons.mpr ⟨hc, hw⟩⟩ hrest

namespace Shell

variable {p : List Char → Bool} {P : List (List Char) → Prop}

/-- What is looked for at the start of each word is told by the words from there on. -/
theorem anyWordStart_iff (hnil : ¬P [])
    (hp : ∀ c s, isBlank c = false → (p (c :: s) = true ↔ P (words (c :: s))))
    (between : Bool) (s : List Char) :
    anyWordStart p between s = true ↔ ∃ ws,
      ws <:+ words (if between then s else afterWord s) ∧ P ws := by
  induction s generalizing between with
  | nil => cases between <;> simp [anyWordStart, afterWord, words_nil, hnil]
  | cons c s ih =>
    rw [anyWordStart, Bool.or_eq_true, ih]
    cases hc : isBlank c with
    | true =>
      have hskip := words_blanks_append (List.forall_mem_singleton.mpr hc) s
      rw [List.singleton_append] at hskip
      cases between <;> simp [afterWord, hc, hskip]
    | false =>
      cases between with
      | false => simp [afterWord, hc]
      | true =>
        obtain ⟨w, hw⟩ := words_cons hc s
        simp only [hp c s hc, hw, List.suffix_cons_iff, Bool.not_false, Bool.true_and, if_true,
          Bool.false_eq_true, if_false]
        constructor
        · rintro (h | ⟨ws, hws, h⟩)
          · exact ⟨_, .inl rfl, h⟩
          · exact ⟨ws, .inr hws, h⟩
        · rintro ⟨ws, rfl | hws, h⟩
          · exact .inl h
          · exact .inr ⟨ws, hws, h⟩

theorem stops_trim (s : List Char) : Stops isBlank (trim s) := by
  obtain ⟨-, -, -, hstops⟩ := exists_blanks_trimStart s
  obtain ⟨trail, -, hs⟩ := exists_blanks_trimEnd (trimStart s)
  unfold trim
  cases h : trimEnd (trimStart s) with
  | nil => exact stops_nil
  | cons c t =>
    rw [hs, h, List.cons_append] at hstops
    exact stops_cons.mpr (stops_cons.mp hstops)

theorem eq_nil_of_blanks_append (hgap : Blanks gap) (h : Stops isBlank (gap ++ s)) : gap = [] := by
  cases gap with
  | nil => rfl
  | cons c gap =>
    have hc := stops_cons.mp h
    rw [hgap c List.mem_cons_self] at hc
    cases hc

theorem endsWord_gap_append (hne : gap ≠ []) (hgap : Blanks gap) (s : List Char) :
    EndsWord (gap ++ s) :=
  hgap.stops_append hne (fun c hc => by simp [hc]) s

/-- Where a word ends and yet more words come, there are blanks. -/
theorem exists_gap_of_words_ne_nil (hs : EndsWord s) (hne : words s ≠ []) :
    ∃ gap, gap ≠ [] ∧ Blanks gap ∧ s = gap ++ trimStart s ∧ Stops isBlank (trimStart s) := by
  obtain ⟨gap, hgap, he, hstops⟩ := exists_blanks_trimStart s
  refine ⟨gap, ?_, hgap, he, hstops⟩
  rintro rfl
  cases s with
  | nil => exact hne words_nil
  | cons c s =>
    have hc := endsWord_cons.mp hs
    rw [List.nil_append] at he
    rw [← he] at hstops
    rw [stops_cons.mp hstops] at hc
    cases hc

/-- Where a text starts with a word and more words come, blanks stand between them. -/
theorem exists_gap_of_words_eq_cons (hs : Stops isBlank s) (h : words s = w :: ws) (hne : ws ≠ []) :
    ∃ gap t, gap ≠ [] ∧ Blanks gap ∧ s = w ++ (gap ++ t) ∧ Stops isBlank t ∧ words t = ws := by
  obtain ⟨lead, rest, rfl, hlead, -, hrest, rfl⟩ := words_eq_cons_iff.mp h
  obtain ⟨gap, hgapNe, hgap, he, hstops⟩ := exists_gap_of_words_ne_nil hrest hne
  refine ⟨gap, trimStart rest, hgapNe, hgap, ?_, hstops, ?_⟩
  · rw [eq_nil_of_blanks_append hlead hs, List.nil_append, ← he]
  · have hskip := words_blanks_append hgap (trimStart rest)
    rw [← he] at hskip
    exact hskip.symm

/-- A line sets an option if its first word is `set` and one of the words after that begins the
option. -/
theorem setsOption_iff (hnil : ¬P [])
    (hp : ∀ c s, isBlank c = false → (p (c :: s) = true ↔ P (words (c :: s))))
    {line : Line} :
    setsOption p line = true ↔ ∃ args ws,
      words (trim line) = "set".toList :: args ∧ ws <:+ args ∧ P ws := by
  have hset : IsToken "set".toList := ⟨by decide, by decide⟩
  rw [setsOption, Option.any_eq_true]
  constructor
  · rintro ⟨rest, hread, h⟩
    obtain ⟨gap, hne, hgap, hline, -⟩ := afterKeyword_eq_some_iff.mp hread
    obtain ⟨ws, hws, h⟩ := (anyWordStart_iff hnil hp true rest).mp h
    refine ⟨words rest, ws, ?_, hws, h⟩
    rw [hline, words_append hset (endsWord_gap_append hne hgap rest), words_blanks_append hgap]
  · rintro ⟨args, ws, hwords, hws, h⟩
    have hargs : args ≠ [] := by
      rintro rfl
      rw [List.suffix_nil] at hws
      exact hnil (hws ▸ h)
    obtain ⟨gap, t, hne, hgap, hline, hstops, rfl⟩ :=
      exists_gap_of_words_eq_cons (stops_trim line) hwords hargs
    exact ⟨t, afterKeyword_eq_some_iff.mpr ⟨gap, hne, hgap, hline, hstops⟩,
      (anyWordStart_iff hnil hp true t).mpr ⟨ws, hws, h⟩⟩

/-! ## Options -/

/-- A word that is `word`, or goes on with a character that is not a word character. -/
def StartsWithWord (word w : List Char) : Prop :=
  ∃ rest, w = word ++ rest ∧ Stops isWord rest

/-- A dash and a run of letters with an `e` among them. Letters are word characters, so all of the
run is meant. -/
def IsErrexitWord (w : List Char) : Prop :=
  ∃ letters, (∀ c ∈ letters, isLetter c = true) ∧ 'e' ∈ letters ∧ StartsWithWord ('-' :: letters) w

/-- A dash and letters that end in `o`. -/
def IsOptionWord (w : List Char) : Prop :=
  ∃ letters, (∀ c ∈ letters, isLetter c = true) ∧ w = '-' :: (letters ++ ['o'])

/-- Words that begin with the option to stop at the first failing command. -/
inductive BeginsErrexit : List (List Char) → Prop
  | flag {w : List Char} {ws : List (List Char)} (h : IsErrexitWord w) : BeginsErrexit (w :: ws)
  | named {w : List Char} {ws : List (List Char)} (h : StartsWithWord "errexit".toList w) :
      BeginsErrexit ("-o".toList :: w :: ws)

/-- Words that begin with the option to fail with any command of a pipeline. -/
inductive BeginsPipefail : List (List Char) → Prop
  | named {v w : List Char} {ws : List (List Char)} (hv : IsOptionWord v)
    (hw : StartsWithWord "pipefail".toList w) :
      BeginsPipefail (v :: w :: ws)

variable {word u letters : List Char}

/-- How a word starts does not depend on what comes after a character that is neither in the start
nor a word character. -/
theorem startsWithWord_append_cons_iff (hc : c ∉ word) (hstop : isWord c = false) :
    StartsWithWord word (w ++ c :: rest) ↔ StartsWithWord word w := by
  constructor
  · rintro ⟨t, he, ht⟩
    rcases List.append_eq_append_iff.mp he with ⟨x, rfl, hx⟩ | ⟨x, rfl, rfl⟩
    · cases x with
      | nil => exact ⟨[], by simp, stops_nil⟩
      | cons d x =>
        cases hx
        exact absurd (by simp) hc
    · refine ⟨x, rfl, ?_⟩
      cases x with
      | nil => exact stops_nil
      | cons d x => exact stops_cons.mpr (stops_cons.mp ht)
  · rintro ⟨x, rfl, hx⟩
    refine ⟨x ++ c :: rest, List.append_assoc .., ?_⟩
    cases x with
    | nil => exact stops_cons.mpr hstop
    | cons d x => exact stops_cons.mpr (stops_cons.mp hx)

/-- How a word starts is told by its own characters, whatever comes after the blank at its end. -/
theorem startsWithWord_append_iff (hword : Unbroken word) (hrest : EndsWord rest) :
    StartsWithWord word (w ++ rest) ↔ StartsWithWord word w := by
  cases rest with
  | nil => rw [List.append_nil]
  | cons c rest =>
    have hc := endsWord_cons.mp hrest
    refine startsWithWord_append_cons_iff (fun hm => ?_) (isWord_eq_false_of_isBlank hc)
    rw [hword c hm] at hc
    cases hc

theorem isLetter_eq_false_of_isWord (h : isWord c = false) : isLetter c = false := by
  rw [Bool.eq_false_iff] at h ⊢
  intro hc
  exact h (isWord_of_isNamePart (by simp [isNamePart, isNameStart, hc]))

theorem unbroken_dash_cons (h : ∀ c ∈ letters, isLetter c = true) : Unbroken ('-' :: letters) := by
  refine List.forall_mem_cons.mpr ⟨by decide, fun c hc => isBlank_eq_false_of_isNamePart ?_⟩
  simp [isNamePart, isNameStart, h c hc]

theorem isLetter_of_mem_concat (h : ∀ c ∈ letters, isLetter c = true) :
    ∀ c ∈ letters ++ ['o'], isLetter c = true := by
  intro c hc
  rcases List.mem_append.mp hc with hc | hc
  · exact h c hc
  · rw [List.mem_singleton.mp hc]
    rfl

theorem IsOptionWord.isToken (h : IsOptionWord w) : IsToken w := by
  obtain ⟨letters, hletters, rfl⟩ := h
  exact ⟨List.cons_ne_nil '-' _, unbroken_dash_cons (isLetter_of_mem_concat hletters)⟩

theorem isErrexitWord_append_iff (hrest : EndsWord rest) :
    IsErrexitWord (w ++ rest) ↔ IsErrexitWord w := by
  constructor
  · rintro ⟨letters, hletters, he, h⟩
    exact ⟨letters, hletters, he,
      (startsWithWord_append_iff (unbroken_dash_cons hletters) hrest).mp h⟩
  · rintro ⟨letters, hletters, he, h⟩
    exact ⟨letters, hletters, he,
      (startsWithWord_append_iff (unbroken_dash_cons hletters) hrest).mpr h⟩

/-- A word, blanks and a second word that starts in a given way are the first two words of the
text. -/
theorem exists_gap_startsWithWord_iff (hu : IsToken u) (hword : IsToken word)
    (hs : Stops isBlank s) :
    (∃ gap t, gap ≠ [] ∧ Blanks gap ∧ s = u ++ (gap ++ t) ∧ StartsWithWord word t) ↔
      ∃ w ws, words s = u :: w :: ws ∧ StartsWithWord word w := by
  constructor
  · rintro ⟨gap, t, hne, hgap, rfl, h⟩
    obtain ⟨w, rest, rfl, hw, hrest⟩ := exists_unbroken_append t
    rw [startsWithWord_append_iff hword.unbroken hrest] at h
    have hwNe : w ≠ [] := by
      obtain ⟨x, rfl, -⟩ := h
      simp [hword.ne_nil]
    refine ⟨w, words rest, ?_, h⟩
    rw [words_append hu (endsWord_gap_append hne hgap _), words_blanks_append hgap,
      words_append ⟨hwNe, hw⟩ hrest]
  · rintro ⟨w, ws, hwords, h⟩
    obtain ⟨gap, t, hne, hgap, hsplit, hstops, ht⟩ :=
      exists_gap_of_words_eq_cons hs hwords (List.cons_ne_nil w ws)
    obtain ⟨lead, rest, rfl, hlead, -, hrest, -⟩ := words_eq_cons_iff.mp ht
    rw [eq_nil_of_blanks_append hlead hstops] at hsplit
    exact ⟨gap, w ++ rest, hne, hgap, hsplit,
      (startsWithWord_append_iff hword.unbroken hrest).mpr h⟩

theorem isErrexitFlag_iff : isErrexitFlag s = true ↔ IsErrexitWord s := by
  constructor
  · intro h
    unfold isErrexitFlag at h
    split at h
    · next t =>
      obtain ⟨he, hend⟩ := Bool.and_eq_true_iff.mp h
      refine ⟨t.takeWhile isLetter, fun c hc => List.mem_takeWhile_imp hc,
        List.contains_iff_mem.mp he, t.dropWhile isLetter, ?_, atWordEnd_iff.mp hend⟩
      rw [List.cons_append, List.takeWhile_append_dropWhile]
    · cases h
  · rintro ⟨letters, hletters, he, rest, rfl, hend⟩
    have hstops : Stops isLetter rest := fun c hc => isLetter_eq_false_of_isWord (hend c hc)
    simp [isErrexitFlag, takeWhile_append_of_stops hletters hstops,
      dropWhile_append_of_stops hletters hstops, he, atWordEnd_iff.mpr hend]

/-- At least one blank and the word, and the word ends there. -/
theorem skipBlanks1_stripStart_iff (hword : IsToken word) :
    ((skipBlanks1 s).bind (stripStart word)).any atWordEnd = true ↔
      ∃ gap t, gap ≠ [] ∧ Blanks gap ∧ s = gap ++ t ∧ StartsWithWord word t := by
  rw [Option.any_eq_true]
  constructor
  · rintro ⟨rest, hread, hend⟩
    obtain ⟨t, ht, hread⟩ := Option.bind_eq_some_iff.mp hread
    obtain ⟨gap, hgapNe, hgap, hs, -⟩ := skipBlanks1_eq_some_iff.mp ht
    exact ⟨gap, t, hgapNe, hgap, hs, rest, stripStart_eq_some_iff.mp hread, atWordEnd_iff.mp hend⟩
  · rintro ⟨gap, t, hgapNe, hgap, hs, rest, ht, hend⟩
    refine ⟨rest,
      Option.bind_eq_some_iff.mpr ⟨t, skipBlanks1_eq_some_iff.mpr ⟨gap, hgapNe, hgap, hs, ?_⟩, ?_⟩,
      atWordEnd_iff.mpr hend⟩
    · cases word with
      | nil => exact absurd rfl hword.ne_nil
      | cons c word =>
        rw [ht]
        exact stops_cons.mpr (hword.unbroken c List.mem_cons_self)
    · exact stripStart_eq_some_iff.mpr ht

theorem isToken_errexit : IsToken "errexit".toList :=
  ⟨by decide, by decide⟩

theorem isToken_pipefail : IsToken "pipefail".toList :=
  ⟨by decide, by decide⟩

theorem isErrexitName_iff :
    isErrexitName s = true ↔
      ∃ gap t, gap ≠ [] ∧ Blanks gap ∧ s = "-o".toList ++ (gap ++ t) ∧
        StartsWithWord "errexit".toList t := by
  rw [isErrexitName, Option.bind_assoc, Option.any_bind, Option.any_eq_true]
  constructor
  · rintro ⟨r, hr, h⟩
    obtain ⟨gap, t, hne, hgap, rfl, ht⟩ := (skipBlanks1_stripStart_iff isToken_errexit).mp h
    exact ⟨gap, t, hne, hgap, stripStart_eq_some_iff.mp hr, ht⟩
  · rintro ⟨gap, t, hne, hgap, hs, ht⟩
    exact ⟨gap ++ t, stripStart_eq_some_iff.mpr hs,
      (skipBlanks1_stripStart_iff isToken_errexit).mpr ⟨gap, t, hne, hgap, rfl, ht⟩⟩

theorem isPipefail_iff :
    isPipefail s = true ↔
      ∃ u, IsOptionWord u ∧
        ∃ gap t, gap ≠ [] ∧ Blanks gap ∧ s = u ++ (gap ++ t) ∧
          StartsWithWord "pipefail".toList t := by
  constructor
  · intro h
    unfold isPipefail at h
    split at h
    · next r =>
      obtain ⟨ho, h⟩ := Bool.and_eq_true_iff.mp h
      obtain ⟨letters, hletters⟩ := List.getLast?_eq_some_iff.mp (eq_of_beq ho)
      obtain ⟨gap, t, hne, hgap, hr, ht⟩ := (skipBlanks1_stripStart_iff isToken_pipefail).mp h
      refine ⟨'-' :: (letters ++ ['o']), ⟨letters, fun c hc => ?_, rfl⟩, gap, t, hne, hgap, ?_, ht⟩
      · exact List.mem_takeWhile_imp (l := r) (by simp [hletters, hc])
      · rw [← hletters, ← hr, List.cons_append, List.takeWhile_append_dropWhile]
    · cases h
  · rintro ⟨_, ⟨letters, hletters, rfl⟩, gap, t, hne, hgap, rfl, ht⟩
    have hall := isLetter_of_mem_concat hletters
    have hstops : Stops isLetter (gap ++ t) := fun c hc =>
      isLetter_eq_false_of_isWord ((endsWord_gap_append hne hgap t).stops_isWord c hc)
    have hafter := (skipBlanks1_stripStart_iff isToken_pipefail).mpr ⟨gap, t, hne, hgap, rfl, ht⟩
    simp only [isPipefail, List.cons_append, takeWhile_append_of_stops hall hstops,
      dropWhile_append_of_stops hall hstops, List.getLast?_concat, beq_self_eq_true,
        Bool.true_and, hafter]

/-- Where a word starts, the readers of the option see what the words from there on begin with. -/
theorem beginsErrexit_iff (hc : isBlank c = false) :
    (isErrexitFlag (c :: s) || isErrexitName (c :: s)) = true ↔ BeginsErrexit (words (c :: s)) := by
  have hstops : Stops isBlank (c :: s) := stops_cons.mpr hc
  rw [Bool.or_eq_true, isErrexitFlag_iff, isErrexitName_iff,
    exists_gap_startsWithWord_iff ⟨by decide, by decide⟩ isToken_errexit hstops]
  obtain ⟨w, rest, hs, hw, hrest⟩ := exists_token_append hc s
  rw [hs, isErrexitWord_append_iff hrest, words_append hw hrest]
  constructor
  · rintro (h | ⟨w', ws, hwords, h⟩)
    · exact .flag h
    · rw [hwords]
      exact .named h
  · intro h
    generalize hws : words rest = ws at h
    cases h with
    | flag h => exact .inl h
    | named h => exact .inr ⟨_, _, rfl, h⟩

theorem beginsPipefail_iff (hc : isBlank c = false) :
    isPipefail (c :: s) = true ↔ BeginsPipefail (words (c :: s)) := by
  have hstops : Stops isBlank (c :: s) := stops_cons.mpr hc
  rw [isPipefail_iff]
  constructor
  · rintro ⟨u, hu, h⟩
    obtain ⟨w, ws, hwords, h⟩ :=
      (exists_gap_startsWithWord_iff hu.isToken isToken_pipefail hstops).mp h
    rw [hwords]
    exact .named hu h
  · intro h
    generalize hws : words (c :: s) = ws at h
    cases h with
    | named hv hw =>
      exact ⟨_, hv, (exists_gap_startsWithWord_iff hv.isToken isToken_pipefail hstops).mpr
        ⟨_, _, hws, hw⟩⟩

/-- The first word of the line is `set`, and the words from one after that on satisfy `P`. -/
def Sets (P : List (List Char) → Prop) (line : Line) : Prop :=
  ∃ args ws, words (trim line) = "set".toList :: args ∧ ws <:+ args ∧ P ws

theorem setsErrexit_iff {line : Line} : setsErrexit line = true ↔ Sets BeginsErrexit line :=
  setsOption_iff nofun fun _ _ => beginsErrexit_iff

theorem setsPipefail_iff {line : Line} : setsPipefail line = true ↔ Sets BeginsPipefail line :=
  setsOption_iff nofun fun _ _ => beginsPipefail_iff

/-- An underscore goes on with the word of the flag, a dash does not. -/
example : ¬Sets BeginsErrexit "set -u -e_".toList ∧ Sets BeginsErrexit "set -u -e-".toList := by
  rw [← setsErrexit_iff, ← setsErrexit_iff]
  decide

end Shell

end ScriptLint
