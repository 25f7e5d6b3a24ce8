import Mathlib.Data.List.TakeWhile
import ScriptLint.Shell.Function

/-!
How the lines of a script are made up. The readers of names, assignments and declarations accept
exactly the lines that are put together as the relations here say. Main statements:
`assignment?_eq_some_iff`, `declaredFunction?_eq_some_iff`, `assignsVariable_iff` and `hasWord_iff`.
-/

namespace ScriptLint

/-- White space, or nothing. -/
def Blanks (s : List Char) : Prop :=
  ∀ c ∈ s, isBlank c = true

/-- The text does not go on with a character that satisfies `p`. -/
def Stops (p : Char → Bool) (s : List Char) : Prop :=
  ∀ c ∈ s.head?, p c = false

variable {p : Char → Bool} {s rest : List Char} {c : Char}

theorem stops_nil : Stops p [] :=
  nofun

theorem stops_cons : Stops p (c :: s) ↔ p c = false := by
  simp [Stops]

theorem stops_dropWhile (p : Char → Bool) (s : List Char) : Stops p (s.dropWhile p) := by
  intro c hc
  have hhead := List.head?_dropWhile_not p s
  rw [hc] at hhead
  simpa using hhead

/-- What stops a run of characters is all that is left after it. -/
theorem dropWhile_append_of_stops (hs : ∀ c ∈ s, p c = true) (hrest : Stops p rest) :
    (s ++ rest).dropWhile p = rest := by
  rw [List.dropWhile_append_of_pos hs]
  cases rest with
  | nil => rfl
  | cons c rest => simp [stops_cons.mp hrest]

theorem takeWhile_append_of_stops (hs : ∀ c ∈ s, p c = true) (hrest : Stops p rest) :
    (s ++ rest).takeWhile p = s := by
  rw [List.takeWhile_append_of_pos hs]
  cases rest with
  | nil => simp
  | cons c rest => simp [stops_cons.mp hrest]

theorem isWord_eq_false_of_isBlank (h : isBlank c = true) : isWord c = false := by
  have hall : ∀ n ∈ List.range' 9 5 ++ [0x20, 0x85, 0xa0, 0x1680] ++ List.range' 0x2000 11 ++
      [0x2028, 0x2029, 0x202f, 0x205f, 0x3000], isWord (Char.ofNat n) = false := by
    decide +kernel
  rw [← Char.ofNat_toNat c]
  refine hall _ ?_
  simp [isBlank] at h
  simp [List.mem_range'_1]
  omega

theorem atWordEnd_iff : atWordEnd s = true ↔ Stops isWord s := by
  cases s with
  | nil => simp [atWordEnd, stops_nil]
  | cons c s => simp [atWordEnd, stops_cons]

/-! ## Blanks -/

theorem exists_blanks_trimStart (s : List Char) :
    ∃ lead, Blanks lead ∧ s = lead ++ trimStart s ∧ Stops isBlank (trimStart s) := by
  refine ⟨s.takeWhile isBlank, ?_, List.takeWhile_append_dropWhile.symm, stops_dropWhile isBlank s⟩
  exact fun c hc => List.mem_takeWhile_imp hc

theorem exists_blanks_trimEnd (s : List Char) :
    ∃ trail, Blanks trail ∧ s = trimEnd s ++ trail := by
  obtain ⟨lead, hlead, hs, -⟩ := exists_blanks_trimStart s.reverse
  refine ⟨lead.reverse, fun c hc => hlead c (List.mem_reverse.mp hc), ?_⟩
  have hreverse := congrArg List.reverse hs
  rwa [List.reverse_reverse, List.reverse_append] at hreverse

/-- What stops at blanks stops at these. -/
theorem Blanks.stops_append {gap : List Char} (hgap : Blanks gap) (hne : gap ≠ [])
    (hp : ∀ c, isBlank c = true → p c = false) (rest : List Char) : Stops p (gap ++ rest) := by
  cases gap with
  | nil => exact absurd rfl hne
  | cons c gap => exact stops_cons.mpr (hp c (hgap c List.mem_cons_self))

theorem trimStart_append (hs : Blanks s) (hrest : Stops isBlank rest) :
    trimStart (s ++ rest) = rest :=
  dropWhile_append_of_stops hs hrest

theorem trimStart_append_cons (hs : Blanks s) (c : Char) (hc : isBlank c = false)
    (rest : List Char) :
    trimStart (s ++ c :: rest) = c :: rest :=
  trimStart_append hs (stops_cons.mpr hc)

theorem trimEnd_append_cons (s : List Char) {c : Char} (hc : isBlank c = false) (rest : List Char) :
    trimEnd (s ++ c :: rest) = s ++ c :: trimEnd rest := by
  simp only [trimEnd, List.reverse_append, List.reverse_cons, List.append_assoc,
    List.singleton_append, List.dropWhile_append]
  split
  · next h => simp [List.isEmpty_iff.mp h, hc]
  · simp

/-- At least one blank, all blanks that there are, and then the rest. -/
theorem skipBlanks1_eq_some_iff :
    skipBlanks1 s = some rest ↔
      ∃ gap, gap ≠ [] ∧ Blanks gap ∧ s = gap ++ rest ∧ Stops isBlank rest := by
  constructor
  · intro h
    cases s with
    | nil => cases h
    | cons c s =>
      rw [skipBlanks1] at h
      split at h
      · next hc =>
        cases h
        obtain ⟨lead, hlead, hs, hstops⟩ := exists_blanks_trimStart s
        refine ⟨c :: lead, List.cons_ne_nil c lead, List.forall_mem_cons.mpr ⟨hc, hlead⟩,
          ?_, hstops⟩
        rw [List.cons_append, ← hs]
      · cases h
  · rintro ⟨gap, hne, hgap, rfl, hstops⟩
    cases gap with
    | nil => exact absurd rfl hne
    | cons c gap =>
      obtain ⟨hc, hgap⟩ := List.forall_mem_cons.mp hgap
      simp [skipBlanks1, hc, trimStart_append hgap hstops]

/-- A keyword, at least one blank, and then the rest. -/
theorem afterKeyword_eq_some_iff {keyword : List Char} :
    (stripStart keyword s).bind skipBlanks1 = some rest ↔
      ∃ gap, gap ≠ [] ∧ Blanks gap ∧ s = keyword ++ (gap ++ rest) ∧ Stops isBlank rest := by
  rw [Option.bind_eq_some_iff]
  constructor
  · rintro ⟨t, ht, hrest⟩
    obtain ⟨gap, hne, hgap, rfl, hstops⟩ := skipBlanks1_eq_some_iff.mp hrest
    exact ⟨gap, hne, hgap, stripStart_eq_some_iff.mp ht, hstops⟩
  · rintro ⟨gap, hne, hgap, rfl, hstops⟩
    exact ⟨gap ++ rest, stripStart_eq_some_iff.mpr rfl,
      skipBlanks1_eq_some_iff.mpr ⟨gap, hne, hgap, rfl, hstops⟩⟩

/-! ## Whole words -/

/-- The word stands in the text, with no word character directly before it or after it. -/
def HasWord (word text : List Char) : Prop :=
  ∃ before after, text = before ++ (word ++ after) ∧ (∀ c ∈ before.getLast?, isWord c = false) ∧
    Stops isWord after

/-- The search meets a whole word wherever it stands; at the start of the text it takes `b` for what
comes before. -/
theorem hasWordFrom_iff {word : List Char} (hword : word ≠ []) (b : Bool) (text : List Char) :
    hasWordFrom word b text = true ↔
      ∃ before after, text = before ++ (word ++ after) ∧ (before = [] → b = false) ∧
        (∀ c ∈ before.getLast?, isWord c = false) ∧ Stops isWord after := by
  induction text generalizing b with
  | nil => simp [hasWordFrom, hword]
  | cons c text ih =>
    have hhere : (stripStart word (c :: text)).any atWordEnd = true ↔
        ∃ after, c :: text = word ++ after ∧ Stops isWord after := by
      simp [Option.any_eq_true, stripStart_eq_some_iff, atWordEnd_iff]
    rw [hasWordFrom, Bool.or_eq_true, Bool.and_eq_true, Bool.not_eq_true', hhere, ih]
    constructor
    · rintro (⟨hb, after, ht, hafter⟩ | ⟨before, after, ht, hstart, hbefore, hafter⟩)
      · exact ⟨[], after, ht, fun _ => hb, nofun, hafter⟩
      · refine ⟨c :: before, after, by rw [ht, List.cons_append], nofun, ?_, hafter⟩
        cases before with
        | nil => simpa using hstart rfl
        | cons d before => simpa using hbefore
    · rintro ⟨before, after, ht, hstart, hbefore, hafter⟩
      cases before with
      | nil => exact .inl ⟨hstart rfl, after, ht, hafter⟩
      | cons d before =>
        rw [List.cons_append, List.cons.injEq] at ht
        obtain ⟨rfl, ht⟩ := ht
        refine .inr ⟨before, after, ht, ?_, ?_, hafter⟩
        · rintro rfl
          simpa using hbefore
        · cases before with
          | nil => nofun
          | cons e before => simpa using hbefore

theorem hasWord_iff {word text : List Char} (hword : word ≠ []) :
    hasWord word text = true ↔ HasWord word text := by
  rw [hasWord, hasWordFrom_iff hword]
  simp [HasWord]

end ScriptLint

namespace ScriptLint.Shell

/-! ## Names -/

/-- A character that satisfies `first`, and then any that satisfy `more`. -/
inductive Spelled (first more : Char → Bool) : List Char → Prop
  | cons {c : Char} {s : List Char} (hc : first c = true) (hs : ∀ d ∈ s, more d = true) :
    Spelled first more (c :: s)

/-- Letters, digits and underscores, with no digit at the start. -/
abbrev IsIdentifier : List Char → Prop :=
  Spelled isNameStart isNamePart

variable {first more : Char → Bool} {s name rest : List Char} {c : Char}

theorem isWord_of_isNamePart (h : isNamePart c = true) : isWord c = true := by
  have hlt : c.toNat < 0x80 := by
    simp only [isNamePart, isNameStart, isLetter, isDigit, Bool.or_eq_true, Bool.and_eq_true,
      decide_eq_true_eq, beq_iff_eq, Char.le_def, UInt32.le_iff_toNat_le] at h
    rcases h with (((h | h) | rfl) | h)
    · exact Nat.lt_of_le_of_lt h.2 (by decide)
    · exact Nat.lt_of_le_of_lt h.2 (by decide)
    · decide
    · exact Nat.lt_of_le_of_lt h.2 (by decide)
  simpa [isWord, hlt, isNamePart, isNameStart, or_right_comm] using h

/-- Blanks are not in names. -/
theorem isNamePart_eq_false_of_isBlank (h : isBlank c = true) : isNamePart c = false := by
  rw [Bool.eq_false_iff]
  intro hc
  exact Bool.eq_false_iff.mp (isWord_eq_false_of_isBlank h) (isWord_of_isNamePart hc)

theorem isBlank_eq_false_of_isNamePart (h : isNamePart c = true) : isBlank c = false := by
  rw [Bool.eq_false_iff]
  intro hc
  exact Bool.eq_false_iff.mp (isNamePart_eq_false_of_isBlank hc) h

/-- A name is read up to where it stops. -/
theorem readName?_eq_some_iff :
    readName? first more s = some (name, rest) ↔ s = name ++ rest ∧ Spelled first more name ∧
      Stops more rest := by
  constructor
  · intro h
    cases s with
    | nil => cases h
    | cons c s =>
      rw [readName?] at h
      split at h
      · next hc =>
        cases h
        refine ⟨?_, .cons hc fun d hd => List.mem_takeWhile_imp hd, stops_dropWhile more s⟩
        rw [List.cons_append, List.takeWhile_append_dropWhile]
      · cases h
  · rintro ⟨rfl, ⟨hc, hs⟩, hrest⟩
    simp [readName?, hc, takeWhile_append_of_stops hs hrest, dropWhile_append_of_stops hs hrest]

theorem beforeEquals?_readName?_eq_some_iff (he : more '=' = false) :
    beforeEquals? (readName? first more s) = some name ↔ ∃ rest, s = name ++ '=' :: rest ∧
      Spelled first more name := by
  simp [beforeEquals?_eq_some_iff, readName?_eq_some_iff, stops_cons, he]

/-- A name as it follows blanks: it does not start with one. -/
theorem Spelled.stops_append (h : Spelled first more name)
    (hfirst : ∀ c, first c = true → isNamePart c = true)
    (rest : List Char) : Stops isBlank (name ++ rest) := by
  cases h with
  | cons hc hs => exact stops_cons.mpr (isBlank_eq_false_of_isNamePart (hfirst _ hc))

theorem isNamePart_of_isNameStart {c : Char} (h : isNameStart c = true) : isNamePart c = true := by
  simp [isNamePart, h]

theorem isNamePart_of_isLowerStart {c : Char} (h : isLowerStart c = true) :
    isNamePart c = true := by
  simp only [isLowerStart, Bool.or_eq_true] at h
  rcases h with h | h <;> simp [isNamePart, isNameStart, isLetter, h]

theorem identifier?_eq_some_iff :
    identifier? s = some (name, rest) ↔ s = name ++ rest ∧ IsIdentifier name ∧
      Stops isNamePart rest :=
  readName?_eq_some_iff

/-- No name goes on past blanks. -/
theorem stops_gap_append {gap : List Char} (hne : gap ≠ []) (hgap : Blanks gap) (rest : List Char) :
    Stops isNamePart (gap ++ rest) :=
  hgap.stops_append hne (fun _ => isNamePart_eq_false_of_isBlank) rest

/-- A text begins with one identifier only. -/
theorem IsIdentifier.unique {name' rest' : List Char} (h : IsIdentifier name)
    (hrest : Stops isNamePart rest) (h' : IsIdentifier name') (hrest' : Stops isNamePart rest')
    (he : name ++ rest = name' ++ rest') :
    name = name' ∧ rest = rest' := by
  have hread := identifier?_eq_some_iff.mpr ⟨rfl, h, hrest⟩
  rw [identifier?_eq_some_iff.mpr ⟨he, h', hrest'⟩] at hread
  simpa using hread.symm

/-! ## Assignments -/

/-- The line assigns to a name, after blanks and perhaps the keyword `readonly`. -/
inductive Assigns : Line → Assignment → Prop
  | plain {lead name rest : List Char} (hlead : Blanks lead) (hname : IsIdentifier name) :
      Assigns (lead ++ (name ++ '=' :: rest)) ⟨name, false⟩
  | readonly {lead gap name rest : List Char} (hlead : Blanks lead) (hne : gap ≠ [])
    (hgap : Blanks gap) (hname : IsIdentifier name) :
      Assigns (lead ++ ("readonly".toList ++ (gap ++ (name ++ '=' :: rest)))) ⟨name, true⟩

theorem isIdentifier_readonly : IsIdentifier "readonly".toList :=
  .cons rfl (List.all_eq_true.mp (by decide))

/-- Where blanks follow it, the keyword is no name that is assigned to. -/
theorem readonly_ne_of_isIdentifier {gap : List Char} (hne : gap ≠ []) (hgap : Blanks gap)
    (h : IsIdentifier name) :
    "readonly".toList ++ (gap ++ rest) ≠ name ++ '=' :: s := by
  intro he
  obtain ⟨-, hrest⟩ :=
    isIdentifier_readonly.unique (stops_gap_append hne hgap rest) h (stops_cons.mpr rfl) he
  cases gap with
  | nil => exact hne rfl
  | cons c gap =>
    cases hrest
    cases hgap '=' List.mem_cons_self

theorem assignment?_eq_some_iff {line : Line} {a : Assignment} :
    assignment? line = some a ↔ Assigns line a := by
  constructor
  · intro h
    obtain ⟨lead, hlead, hline, -⟩ := exists_blanks_trimStart line
    unfold assignment? at h
    simp only at h
    split at h
    · next name hread =>
      cases h
      obtain ⟨t, ht, hread⟩ := Option.bind_eq_some_iff.mp hread
      obtain ⟨gap, hne, hgap, hs, -⟩ := afterKeyword_eq_some_iff.mp ht
      obtain ⟨rest, rfl, hname⟩ := (beforeEquals?_readName?_eq_some_iff rfl).mp hread
      rw [hline, hs]
      exact .readonly hlead hne hgap hname
    · obtain ⟨name, hname, rfl⟩ := Option.map_eq_some_iff.mp h
      obtain ⟨rest, hs, hname⟩ := (beforeEquals?_readName?_eq_some_iff rfl).mp hname
      rw [hline, hs]
      exact .plain hlead hname
  · intro h
    cases h with
    | @plain lead name rest hlead hname =>
      have hstops := hname.stops_append (fun _ => isNamePart_of_isNameStart) ('=' :: rest)
      have hnone : afterReadonly? (name ++ '=' :: rest) = none := by
        rw [Option.eq_none_iff_forall_ne_some]
        intro t ht
        obtain ⟨gap, hne, hgap, he, -⟩ := afterKeyword_eq_some_iff.mp ht
        exact readonly_ne_of_isIdentifier hne hgap hname he.symm
      have hread : beforeEquals? (identifier? (name ++ '=' :: rest)) = some name :=
        (beforeEquals?_readName?_eq_some_iff rfl).mpr ⟨rest, rfl, hname⟩
      simp [assignment?, trimStart_append hlead hstops, hnone, hread]
    | @readonly lead gap name rest hlead hne hgap hname =>
      have hstops := hname.stops_append (fun _ => isNamePart_of_isNameStart) ('=' :: rest)
      have hafter : afterReadonly? ("readonly".toList ++ (gap ++ (name ++ '=' :: rest))) =
          some (name ++ '=' :: rest) :=
        afterKeyword_eq_some_iff.mpr ⟨gap, hne, hgap, rfl, hstops⟩
      have hread : beforeEquals? (identifier? (name ++ '=' :: rest)) = some name :=
        (beforeEquals?_readName?_eq_some_iff rfl).mpr ⟨rest, rfl, hname⟩
      have htrim : trimStart (lead ++ ("readonly".toList ++ (gap ++ (name ++ '=' :: rest)))) =
          "readonly".toList ++ (gap ++ (name ++ '=' :: rest)) :=
        trimStart_append hlead (stops_cons.mpr rfl)
      simp only [assignment?, htrim, hafter, Option.bind_some, hread]

/-- A line is read in one way: the keyword is no name that is assigned to. -/
theorem Assigns.unique {line : Line} {a b : Assignment} (ha : Assigns line a)
    (hb : Assigns line b) : a = b :=
  Option.some.inj ((assignment?_eq_some_iff.mpr ha).symm.trans (assignment?_eq_some_iff.mpr hb))

/-- The line assigns to a variable in lower case, after blanks. -/
def AssignsVariable (line : Line) : Prop :=
  ∃ lead name rest, line = lead ++ (name ++ '=' :: rest) ∧ Blanks lead ∧
    Spelled isLowerStart isLowerPart name

theorem assignsVariable_iff {line : Line} : assignsVariable line = true ↔ AssignsVariable line := by
  rw [assignsVariable, Option.isSome_iff_exists]
  constructor
  · rintro ⟨name, hread⟩
    obtain ⟨lead, hlead, hline, -⟩ := exists_blanks_trimStart line
    obtain ⟨rest, hs, hname⟩ := (beforeEquals?_readName?_eq_some_iff rfl).mp hread
    exact ⟨lead, name, rest, by rw [← hs, ← hline], hlead, hname⟩
  · rintro ⟨lead, name, rest, rfl, hlead, hname⟩
    have hstops := hname.stops_append (fun _ => isNamePart_of_isLowerStart) ('=' :: rest)
    rw [trimStart_append hlead hstops]
    exact ⟨name, (beforeEquals?_readName?_eq_some_iff rfl).mpr ⟨rest, rfl, hname⟩⟩

/-! ## Declarations -/

/-- The line declares a function, after blanks: with the keyword `function` before the name, or with
brackets and an opening brace after it. -/
inductive Declares : Line → List Char → Prop
  | keyword {lead gap name rest : List Char} (hlead : Blanks lead) (hne : gap ≠ [])
    (hgap : Blanks gap) (hname : IsIdentifier name) (hrest : Stops isNamePart rest) :
      Declares (lead ++ ("function".toList ++ (gap ++ (name ++ rest)))) name
  | brackets {lead name before inside after rest : List Char} (hlead : Blanks lead)
    (hname : IsIdentifier name)
    (hbefore : Blanks before) (hinside : Blanks inside) (hafter : Blanks after) :
      Declares (lead ++ (name ++ (before ++ '(' :: (inside ++ ')' :: (after ++ '\x7b' :: rest)))))
        name

theorem keywordFunction?_eq_some_iff :
    keywordFunction? s = some name ↔
      ∃ gap rest, gap ≠ [] ∧ Blanks gap ∧ s = "function".toList ++ (gap ++ (name ++ rest)) ∧
        IsIdentifier name ∧
        Stops isNamePart rest := by
  rw [keywordFunction?, Option.map_eq_some_iff]
  constructor
  · rintro ⟨⟨_, rest⟩, hread, rfl⟩
    obtain ⟨t, ht, hread⟩ := Option.bind_eq_some_iff.mp hread
    obtain ⟨gap, hne, hgap, hs, -⟩ := afterKeyword_eq_some_iff.mp ht
    obtain ⟨rfl, hname, hrest⟩ := identifier?_eq_some_iff.mp hread
    exact ⟨gap, rest, hne, hgap, hs, hname, hrest⟩
  · rintro ⟨gap, rest, hne, hgap, hs, hname, hrest⟩
    have hstops := hname.stops_append (fun _ => isNamePart_of_isNameStart) rest
    refine ⟨(name, rest), Option.bind_eq_some_iff.mpr ⟨name ++ rest, ?_, ?_⟩, rfl⟩
    · exact afterKeyword_eq_some_iff.mpr ⟨gap, hne, hgap, hs, hstops⟩
    · exact identifier?_eq_some_iff.mpr ⟨rfl, hname, hrest⟩

theorem trimStart_eq_cons_iff (hc : isBlank c = false) :
    trimStart s = c :: rest ↔ ∃ lead, Blanks lead ∧ s = lead ++ c :: rest := by
  constructor
  · intro h
    obtain ⟨lead, hlead, hs, -⟩ := exists_blanks_trimStart s
    exact ⟨lead, hlead, by rw [← h, ← hs]⟩
  · rintro ⟨lead, hlead, rfl⟩
    exact trimStart_append_cons hlead c hc rest

theorem stops_bracket {before : List Char} (hbefore : Blanks before) (rest : List Char) :
    Stops isNamePart (before ++ '(' :: rest) := by
  by_cases hne : before = []
  · rw [hne]
    exact stops_cons.mpr rfl
  · exact stops_gap_append hne hbefore ('(' :: rest)

theorem bracketFunction?_eq_some_iff :
    bracketFunction? s = some name ↔
      ∃ before inside after rest, Blanks before ∧ Blanks inside ∧ Blanks after ∧
        s = name ++ (before ++ '(' :: (inside ++ ')' :: (after ++ '\x7b' :: rest))) ∧
          IsIdentifier name := by
  constructor
  · intro h
    unfold bracketFunction? at h
    split at h
    · cases h
    next name' t hread =>
    obtain ⟨rfl, hname, -⟩ := identifier?_eq_some_iff.mp hread
    split at h
    next u ht =>
      obtain ⟨before, hbefore, rfl⟩ := (trimStart_eq_cons_iff rfl).mp ht
      split at h
      next v hu =>
        obtain ⟨inside, hinside, rfl⟩ := (trimStart_eq_cons_iff rfl).mp hu
        split at h
        · next hv =>
          cases h
          obtain ⟨rest, hrest⟩ : ∃ rest, trimStart v = '\x7b' :: rest := by
            cases hv' : trimStart v with
            | nil => simp [hv'] at hv
            | cons c rest => exact ⟨rest, by simpa [hv'] using hv⟩
          obtain ⟨after, hafter, rfl⟩ := (trimStart_eq_cons_iff rfl).mp hrest
          exact ⟨before, inside, after, rest, hbefore, hinside, hafter, rfl, hname⟩
        · cases h
      · cases h
    · cases h
  · rintro ⟨before, inside, after, rest, hbefore, hinside, hafter, rfl, hname⟩
    have hstops := stops_bracket hbefore (inside ++ ')' :: (after ++ '\x7b' :: rest))
    have hread := identifier?_eq_some_iff.mpr ⟨rfl, hname, hstops⟩
    have hopen := trimStart_append_cons hbefore '(' rfl (inside ++ ')' :: (after ++ '\x7b' :: rest))
    have hclose := trimStart_append_cons hinside ')' rfl (after ++ '\x7b' :: rest)
    have hbrace := trimStart_append_cons hafter '\x7b' rfl rest
    simp [bracketFunction?, hread, hopen, hclose, hbrace]

theorem isIdentifier_function : IsIdentifier "function".toList :=
  .cons rfl (List.all_eq_true.mp (by decide))

/-- The keyword is a name itself, and yet no line is read in both ways: a name follows its blanks,
or a bracket. -/
theorem keywordFunction?_eq_none {before : List Char} (hname : IsIdentifier name)
    (hbefore : Blanks before) :
    keywordFunction? (name ++ (before ++ '(' :: rest)) = none := by
  rw [Option.eq_none_iff_forall_ne_some]
  intro name' h
  obtain ⟨gap, rest', hne, hgap, he, hname', hrest'⟩ := keywordFunction?_eq_some_iff.mp h
  have hstops := hname'.stops_append (fun _ => isNamePart_of_isNameStart) rest'
  obtain ⟨-, hafter⟩ := hname.unique (stops_bracket hbefore rest) isIdentifier_function
    (stops_gap_append hne hgap (name' ++ rest')) he
  have htrim := congrArg trimStart hafter
  rw [trimStart_append hbefore (stops_cons.mpr rfl), trimStart_append hgap hstops] at htrim
  cases hname' with
  | cons hc hs =>
    cases htrim
    cases hc

theorem declaredFunction?_eq_some_iff {line : Line} : declaredFunction? line = some name ↔
    Declares line name := by
  obtain ⟨lead, hlead, hline, -⟩ := exists_blanks_trimStart line
  constructor
  · intro h
    rw [hline]
    rcases Option.or_eq_some_iff.mp h with hkeyword | ⟨-, hbracket⟩
    · obtain ⟨gap, rest, hne, hgap, hs, hname, hrest⟩ := keywordFunction?_eq_some_iff.mp hkeyword
      rw [hs]
      exact .keyword hlead hne hgap hname hrest
    · obtain ⟨before, inside, after, rest, hbefore, hinside, hafter, hs, hname⟩ :=
        bracketFunction?_eq_some_iff.mp hbracket
      rw [hs]
      exact .brackets hlead hname hbefore hinside hafter
  · intro h
    cases h with
    | @keyword lead gap name rest hlead hne hgap hname hrest =>
      have htrim : trimStart (lead ++ ("function".toList ++ (gap ++ (name ++ rest)))) =
          "function".toList ++ (gap ++ (name ++ rest)) :=
        trimStart_append hlead (stops_cons.mpr rfl)
      have hread := keywordFunction?_eq_some_iff.mpr ⟨gap, rest, hne, hgap, rfl, hname, hrest⟩
      simp only [declaredFunction?, htrim, hread, Option.some_or]
    | @brackets lead name before inside after rest hlead hname hbefore hinside hafter =>
      have hstops := hname.stops_append (fun _ => isNamePart_of_isNameStart)
        (before ++ '(' :: (inside ++ ')' :: (after ++ '\x7b' :: rest)))
      have hread := bracketFunction?_eq_some_iff.mpr ⟨before, inside, after, rest, hbefore, hinside,
        hafter, rfl, hname⟩
      simp only [declaredFunction?, trimStart_append hlead hstops,
        keywordFunction?_eq_none hname hbefore, Option.none_or, hread]

/-- What declares a function starts with a name, be it the keyword. -/
theorem Declares.exists_trimStart {line : Line} (h : Declares line name) :
    ∃ c rest, trimStart line = c :: rest ∧ isNameStart c = true := by
  cases h with
  | @keyword lead gap name rest hlead hne hgap hname hrest =>
    exact ⟨'f', _, trimStart_append hlead (stops_cons.mpr rfl), rfl⟩
  | @brackets lead name before inside after rest hlead hname hbefore hinside hafter =>
    have htrim := trimStart_append hlead (hname.stops_append (fun _ => isNamePart_of_isNameStart)
      (before ++ '(' :: (inside ++ ')' :: (after ++ '\x7b' :: rest))))
    cases hname with
    | cons hc hs => exact ⟨_, _, htrim, hc⟩

/-- A line that is only a closing brace declares nothing. -/
theorem declaredFunction?_eq_none_of_isClosing {line : Line} (h : isClosing line = true) :
    declaredFunction? line = none := by
  obtain ⟨trail, -, htrail⟩ := exists_blanks_trimEnd (trimStart line)
  rw [isClosing, beq_iff_eq, trim] at h
  rw [h] at htrail
  rw [Option.eq_none_iff_forall_ne_some]
  intro name hdeclared
  obtain ⟨c, rest, hs, hc⟩ := (declaredFunction?_eq_some_iff.mp hdeclared).exists_trimStart
  rw [htrail] at hs
  cases hs
  cases hc

end ScriptLint.Shell
