import ScriptLint.Proofs.Resolution
import ScriptLint.Proofs.Verdict

/-!
Line ends do not matter. Some checks read the lines of a script and some search its whole text, but
what they search for stands on one line, so that they find it in the text exactly if they find it on
one of the lines (`SplitsAtBreaks.eq_any_lines`). Main statement: `analyze_line_ends`.
-/

namespace ScriptLint

/-- The characters of which line ends consist. -/
def IsBreak (c : Char) : Prop :=
  c = '\n' ∨ c = '\r'

/-- The text with a carriage return before each line feed. -/
def withCrlf (s : List Char) : List Char :=
  s.flatMap fun c => if c = '\n' then ['\r', '\n'] else [c]

/-- The second text is the first one with other line ends, or with a line end after its last
line. -/
inductive RewritesLineEnds : (text text' : List Char) → Prop
  | crlf {s : List Char} (h : '\r' ∉ s) : RewritesLineEnds s (withCrlf s)
  | final {s : List Char} (h : ∀ c, s.getLast? = some c → ¬ IsBreak c) :
      RewritesLineEnds s (s ++ ['\n'])

/-- The lines are the same, except that there may be an empty line in the place of no line. -/
def SameLines (ls ls' : List Line) : Prop :=
  ls = ls' ∨ ls = [] ∧ ls' = [[]]

section Lines

variable {s : List Char} {c : Char}

theorem lines_withCrlf (h : '\r' ∉ s) : lines (withCrlf s) = lines s := by
  induction s with
  | nil => rfl
  | cons c s ih =>
    have ih := ih fun hm => h (List.mem_cons_of_mem c hm)
    by_cases hc : c = '\n'
    · subst hc
      have hw : withCrlf ('\n' :: s) = '\r' :: '\n' :: withCrlf s := rfl
      rw [hw, lines_crlf, lines_lf, ih]
    · have hcr : c ≠ '\r' := fun e => h (e ▸ List.mem_cons_self)
      have hw : withCrlf (c :: s) = c :: withCrlf s := by simp [withCrlf, hc]
      rw [hw, lines_cons hc fun e => absurd e hcr, lines_cons hc fun e => absurd e hcr, ih]

theorem lines_append_lf (hne : s ≠ []) (h : ∀ c, s.getLast? = some c → ¬ IsBreak c) :
    lines (s ++ ['\n']) = lines s := by
  fun_induction lines s with
  | case1 => exact absurd rfl hne
  | case2 rest ih =>
    have hrest : rest ≠ [] := by
      rintro rfl
      exact h '\n' rfl (.inl rfl)
    rw [List.cons_append, lines_lf, ih hrest]
    rwa [List.getLast?_cons_of_ne_nil hrest] at h
  | case3 rest ih =>
    have hrest : rest ≠ [] := by
      rintro rfl
      exact h '\n' rfl (.inl rfl)
    rw [List.cons_append, List.cons_append, lines_crlf, ih hrest]
    rwa [List.getLast?_cons_of_ne_nil (List.cons_ne_nil _ _),
      List.getLast?_cons_of_ne_nil hrest] at h
  | case4 c rest hc hcr hlines ih =>
    rw [lines_eq_nil_iff] at hlines
    subst hlines
    have hb := h c rfl
    rw [List.cons_append, lines_cons hc fun e => absurd (.inr e) hb]
    rfl
  | case5 c rest hc hcr line others hlines ih =>
    have hrest : rest ≠ [] := by
      rintro rfl
      cases hlines
    rw [List.getLast?_cons_of_ne_nil hrest] at h
    rw [List.cons_append, lines_cons hc, ih hrest h, hlines]
    rintro rfl hhead
    obtain ⟨first, rest, rfl⟩ := List.exists_cons_of_ne_nil hrest
    cases hhead
    exact hcr rest rfl rfl

theorem RewritesLineEnds.sameLines {text text' : List Char} (h : RewritesLineEnds text text') :
    SameLines (lines text) (lines text') := by
  cases h with
  | crlf h => exact .inl (lines_withCrlf h).symm
  | final h =>
    by_cases hne : text = []
    · subst hne
      exact .inr ⟨rfl, rfl⟩
    · exact .inl (lines_append_lf hne h).symm

end Lines

/-- What holds of a text exactly if it holds of one of the parts between its line ends. -/
structure SplitsAtBreaks (f : List Char → Bool) : Prop where
  empty : f [] = false
  split : ∀ s rest c, IsBreak c → f (s ++ c :: rest) = (f s || f rest)

namespace SplitsAtBreaks

variable {f : List Char → Bool}

theorem any_eq_or (hf : SplitsAtBreaks f) (ls : List Line) :
    ls.any f = (f (ls.headD []) || ls.tail.any f) := by
  cases ls with
  | nil => simp [hf.empty]
  | cons line others => rfl

/-- Whatever comes before a text belongs to its first line. -/
theorem append_eq_or (hf : SplitsAtBreaks f) (start s : List Char) :
    f (start ++ s) = (f (start ++ (lines s).headD []) || (lines s).tail.any f) := by
  fun_induction lines s generalizing start with
  | case1 => simp
  | case2 rest ih =>
    have hrest : f rest = (lines rest).any f := by
      rw [hf.any_eq_or]
      exact ih []
    simp [hf.split _ _ _ (.inl rfl), hrest]
  | case3 rest ih =>
    have hrest : f rest = (lines rest).any f := by
      rw [hf.any_eq_or]
      exact ih []
    have hlf : f ('\n' :: rest) = (f [] || f rest) := hf.split [] rest _ (.inl rfl)
    simp [hf.split _ _ _ (.inr rfl), hlf, hf.empty, hrest]
  | case4 c rest hc hcr hlines ih =>
    have ih := ih (start ++ [c])
    rw [hlines] at ih
    simpa using ih
  | case5 c rest hc hcr line others hlines ih =>
    have ih := ih (start ++ [c])
    rw [hlines] at ih
    simpa using ih

/-- A text has the property exactly if one of its lines has it. -/
theorem eq_any_lines (hf : SplitsAtBreaks f) (s : List Char) : f s = (lines s).any f := by
  rw [hf.any_eq_or]
  exact hf.append_eq_or [] s

end SplitsAtBreaks

section Search

variable {part word s rest : List Char} {c : Char}

theorem stripStart_append_cons (hc : c ∉ part) :
    stripStart part (s ++ c :: rest) = (stripStart part s).map (· ++ c :: rest) := by
  induction part generalizing s with
  | nil => rfl
  | cons p part ih =>
    have hp : p ≠ c := fun e => hc (e ▸ List.mem_cons_self)
    have hpart : c ∉ part := fun hm => hc (List.mem_cons_of_mem p hm)
    cases s with
    | nil => simp [stripStart, hp]
    | cons x s =>
      rw [List.cons_append, stripStart, stripStart, ih hpart]
      split <;> rfl

/-- A part that is searched for lies on one side of every character that is not in it. -/
theorem occurs_append_cons (hne : part ≠ []) (hc : c ∉ part) :
    occurs part (s ++ c :: rest) = (occurs part s || occurs part rest) := by
  induction s with
  | nil =>
    have hnone : stripStart part ([] ++ c :: rest) = none := by
      rw [stripStart_append_cons hc]
      cases part with
      | nil => exact absurd rfl hne
      | cons p part => rfl
    rw [List.nil_append] at hnone
    simp [occurs, hnone, hne]
  | cons x s ih =>
    have hstart := @stripStart_append_cons part (x :: s) rest c hc
    rw [List.cons_append] at hstart ⊢
    rw [occurs, occurs, hstart, ih, Option.isSome_map, Bool.or_assoc]

theorem atWordEnd_append_cons (hc : isWord c = false) :
    atWordEnd (s ++ c :: rest) = atWordEnd s := by
  cases s with
  | nil => simp [atWordEnd, hc]
  | cons x s => rfl

/-- A whole word lies on one side of every character that is no word character and not in it. -/
theorem hasWordFrom_append_cons (hne : word ≠ []) (hc : c ∉ word) (hw : isWord c = false)
    (before : Bool) :
    hasWordFrom word before (s ++ c :: rest) =
      (hasWordFrom word before s || hasWord word rest) := by
  have hany {s : List Char} : (stripStart word (s ++ c :: rest)).any atWordEnd =
      (stripStart word s).any atWordEnd := by
    rw [stripStart_append_cons hc, Option.any_map]
    cases stripStart word s with
    | none => rfl
    | some after => exact atWordEnd_append_cons hw
  induction s generalizing before with
  | nil =>
    have hnone : stripStart word [] = none := by
      cases word with
      | nil => exact absurd rfl hne
      | cons p word => rfl
    have hstart := hany (s := [])
    rw [List.nil_append] at hstart
    simp [hasWordFrom, hasWord, hstart, hnone, hw]
  | cons x s ih =>
    have hstart := hany (s := x :: s)
    rw [List.cons_append] at hstart ⊢
    rw [hasWordFrom, hasWordFrom, hstart, ih, Bool.or_assoc]

/-- No line end stands in the text. -/
def NoBreaks (s : List Char) : Prop :=
  ∀ c ∈ s, ¬ IsBreak c

instance (c : Char) : Decidable (IsBreak c) :=
  inferInstanceAs (Decidable (c = '\n' ∨ c = '\r'))

instance (s : List Char) : Decidable (NoBreaks s) :=
  List.decidableBAll (fun c => ¬ IsBreak c) s

theorem isWord_of_isBreak (hc : IsBreak c) : isWord c = false := by
  rcases hc with rfl | rfl <;> decide

theorem splitsAtBreaks_occurs (hne : part ≠ []) (h : NoBreaks part) :
    SplitsAtBreaks (occurs part) where
  empty := by simp [occurs, hne]
  split _ _ c hc := occurs_append_cons hne fun hm => h c hm hc

theorem splitsAtBreaks_hasWord (hne : word ≠ []) (h : NoBreaks word) :
    SplitsAtBreaks (hasWord word) where
  empty := rfl
  split _ _ c hc := hasWordFrom_append_cons hne (fun hm => h c hm hc) (isWord_of_isBreak hc) false

end Search

namespace SameLines

variable {ls ls' : List Line}

/-- Whatever takes an empty line for no line gives the same for the same lines. -/
theorem congr {β : Type} (h : SameLines ls ls') (f : List Line → β) (hf : f [] = f [[]]) :
    f ls = f ls' := by
  rcases h with rfl | ⟨rfl, rfl⟩
  · rfl
  · exact hf

theorem any (h : SameLines ls ls') {f : Line → Bool} (hf : f [] = false) : ls.any f = ls'.any f :=
  h.congr (List.any · f) (by simp [hf])

end SameLines

/-- The scripts differ at most in their line ends. -/
structure Script.Alike (script script' : Script) : Prop where
  path : script.path = script'.path
  extension : script.extension = script'.extension
  mode : script.mode = script'.mode
  lines : SameLines script.lines script'.lines

namespace Script.Alike

variable {script script' : Script} (h : script.Alike script')
include h

theorem firstLine : script.firstLine = script'.firstLine :=
  h.lines.congr (·.head?.getD []) rfl

theorem search {f : List Char → Bool} (hf : SplitsAtBreaks f) : f script.text = f script'.text := by
  rw [hf.eq_any_lines, hf.eq_any_lines script'.text]
  exact h.lines.any hf.empty

/-- A text without line ends, also the empty one, occurs in both or in neither. -/
theorem occurs {part : List Char} (hp : NoBreaks part) :
    occurs part script.text = occurs part script'.text := by
  by_cases hne : part = []
  · subst hne
    cases script.text <;> cases script'.text <;> rfl
  · exact h.search (splitsAtBreaks_occurs hne hp)

theorem colorDefinitions (palette : Palette) :
    ColorDefinitions.ofLines palette script.numberedLines =
      ColorDefinitions.ofLines palette script'.numberedLines :=
  h.lines.congr (fun ls => ColorDefinitions.ofLines palette (numbered ls)) rfl

theorem shebangFindings : shebangFindings script = shebangFindings script' := by
  simp only [ScriptLint.shebangFindings, h.firstLine, h.extension]

theorem failFastFindings : failFastFindings script = failFastFindings script' := by
  simp only [ScriptLint.failFastFindings, h.lines.any (by decide : Shell.setsErrexit [] = false)]

theorem pipefailFindings : pipefailFindings script = pipefailFindings script' := by
  simp only [ScriptLint.pipefailFindings, h.lines.any (by decide : Shell.setsPipefail [] = false)]

theorem executableFindings : executableFindings script = executableFindings script' := by
  simp only [ScriptLint.executableFindings, h.mode, h.path]

theorem paletteFindings (palette : Palette) :
    paletteFindings palette script = paletteFindings palette script' := by
  simp only [ScriptLint.paletteFindings, h.colorDefinitions]

theorem loggingFindings (palette : Palette) :
    loggingFindings palette script = loggingFindings palette script' := by
  have hnames : ∀ f ∈ loggingFunctions, f.toList ≠ [] ∧ NoBreaks f.toList := by decide
  have hcalls : (loggingFunctions.any fun f => hasWord f.toList script.text) =
      loggingFunctions.any fun f => hasWord f.toList script'.text := by
    rw [Bool.eq_iff_iff, List.any_eq_true, List.any_eq_true]
    refine exists_congr fun f => and_congr_right fun hf => ?_
    obtain ⟨hne, hb⟩ := hnames f hf
    rw [h.search (splitsAtBreaks_hasWord hne hb)]
  simp only [ScriptLint.loggingFindings, h.colorDefinitions, hcalls]

theorem constantFindings : constantFindings script = constantFindings script' := by
  unfold ScriptLint.constantFindings Script.numberedLines
  rcases h.lines with he | ⟨he, he'⟩
  · rw [he]
  · rw [he, he']
    rfl

theorem localFindings : localFindings script = localFindings script' := by
  have hbodies := h.lines.congr (fun ls => Shell.leakingFunctions none (numbered ls)) rfl
  rw [ScriptLint.localFindings, ScriptLint.localFindings]
  exact congrArg _ hbodies

theorem descriptionFindings : descriptionFindings script = descriptionFindings script' := by
  unfold ScriptLint.descriptionFindings
  rcases h.lines with he | ⟨he, he'⟩
  · rw [he]
  · rw [he, he']

theorem envFindings {settings : Settings} (hs : NoBreaks settings.envFile.toList)
    (hm : NoBreaks settings.pythonMarker.toList) :
    envFindings settings script = envFindings settings script' := by
  have hneeded (needed shown : String)
      (he : envRequirement? settings script'.extension = some (needed, shown)) :
        NoBreaks needed.toList := by
    unfold envRequirement? at he
    split at he
    · cases he
      exact hm
    · split at he
      · cases he
        exact hs
      · cases he
  simp only [ScriptLint.envFindings, h.extension]
  cases he : envRequirement? settings script'.extension with
  | none => rfl
  | some requirement =>
    obtain ⟨needed, shown⟩ := requirement
    simp only [h.occurs (hneeded needed shown he)]

end Script.Alike

/-- The settings with another validator, or with none. -/
def Settings.withValidator (settings : Settings) (validator : Option Validator) : Settings :=
  { settings with validator }

section Evaluate

variable {settings : Settings} {validator : Option Validator} {script script' : Script}

theorem Check.evaluate_alike (h : script.Alike script') (hs : NoBreaks settings.envFile.toList)
    (hm : NoBreaks settings.pythonMarker.toList)
    (hv : validator.map (· script'.path) = settings.validator.map (· script.path)) (check : Check) :
    check.evaluate (settings.withValidator validator) script' = check.evaluate settings script := by
  cases check with
  | shellSyntax =>
    have hanswer (settings : Settings) (script : Script) : syntaxFindings settings script =
        ((settings.validator.map (· script.path)).map validationFindings).getD [] := by
      unfold syntaxFindings
      cases settings.validator <;> rfl
    show syntaxFindings (settings.withValidator validator) script' = syntaxFindings settings script
    rw [hanswer, hanswer, ← hv]
    rfl
  | shebang => exact h.shebangFindings.symm
  | failFast => exact h.failFastFindings.symm
  | pipefail => exact h.pipefailFindings.symm
  | executable => exact h.executableFindings.symm
  | palette => exact (h.paletteFindings settings.palette).symm
  | loggingUsage => exact (h.loggingFindings settings.palette).symm
  | readonlyConstants => exact h.constantFindings.symm
  | localVariables => exact h.localFindings.symm
  | descriptionHeader => exact h.descriptionFindings.symm
  | envIntegration => exact (h.envFindings hs hm).symm

theorem Settings.findings_alike (h : script.Alike script') (hs : NoBreaks settings.envFile.toList)
    (hm : NoBreaks settings.pythonMarker.toList)
    (hv : validator.map (· script'.path) = settings.validator.map (· script.path)) :
    (settings.withValidator validator).findings script' = settings.findings script := by
  have hsome : validator.isSome = settings.validator.isSome := by
    rw [← Option.isSome_map, hv, Option.isSome_map]
  have henables : (settings.withValidator validator).enables = settings.enables := by
    funext check
    simp only [enables, withValidator, hsome]
  have hevaluate : Check.evaluate (settings.withValidator validator) script' =
      Check.evaluate settings script :=
    funext fun check => Check.evaluate_alike h hs hm hv check
  rw [findings, findings, checksFor, checksFor, checks, checks, henables, ← h.extension, hevaluate]

end Evaluate

theorem isIgnored_of_sameLines {text text' : List Char} (h : SameLines (lines text) (lines text')) :
    isIgnored text' = isIgnored text :=
  (h.congr (fun ls => (ls.take ignoreScanLines).any (occurs ignoreMarker.toList)) (by decide)).symm

/-- Line ends do not matter. A file whose text differs from that of another one only in its line
ends gets the same result under the same path: with carriage returns in front of all line feeds of a
text that has none, and with a line feed after a text that does not end with one. The permission
bits and the validator's answer have to be the same, and what a script has to mention may not hold
line ends. -/
theorem analyze_line_ends {settings : Settings} {validator : Option Validator} {t t' : FileTree}
    {cwd cwd' : Location} {c : Candidate} {text text' : String} (hr : c.Reads t cwd text)
    (hr' : c.Reads t' cwd' text') (hends : RewritesLineEnds text.toList text'.toList)
    (hmode : t'.mode? cwd' c.path = t.mode? cwd c.path)
    (hv : validator.map (· c.path) = settings.validator.map (· c.path))
    (hs : NoBreaks settings.envFile.toList) (hm : NoBreaks settings.pythonMarker.toList) :
    analyze (settings.withValidator validator) t' cwd' c = analyze settings t cwd c := by
  have hlines := hends.sameLines
  have halike : (c.script t cwd text.toList).Alike (c.script t' cwd' text'.toList) :=
    ⟨rfl, rfl, hmode.symm, hlines⟩
  have hi := isIgnored_of_sameLines hlines
  cases hi' : isIgnored text.toList with
  | true => rw [analyze_of_ignored _ hr hi', analyze_of_ignored _ hr' (hi.trans hi')]
  | false =>
    rw [analyze_of_checked _ hr hi', analyze_of_checked _ hr' (hi.trans hi')]
    rw [Settings.findings_alike halike hs hm hv]

/-- A tree with one script. -/
def scriptOf (text : String) : FileTree :=
  ⟨[([['a', '.', 's', 'h']], .file text.toUTF8 0o755)]⟩

theorem reads_scriptOf (text : String) :
    (⟨"/a.sh", "sh"⟩ : Candidate).Reads (scriptOf text) [] text ∧
      (scriptOf text).mode? [] "/a.sh" = some 0o755 := by
  have hn : IsName ['a', '.', 's', 'h'] := by decide
  have hw : (scriptOf text).WellFormed :=
    ⟨List.forall_mem_singleton.mpr (List.forall_mem_singleton.mpr hn),
      List.forall_mem_singleton.mpr rfl⟩
  have hg : (scriptOf text).get? [['a', '.', 's', 'h']] = some (.file text.toUTF8 0o755) := rfl
  obtain ⟨hread, hmode⟩ := hw.file_toPath hg (by decide) []
  exact ⟨⟨_, hread, Utf8.decode?_toUTF8 text⟩, hmode⟩

/-- A script gets the same result with line ends of two characters. -/
theorem analyze_line_ends_crlf :
    let result := analyze {} (scriptOf "#!/bin/bash\r\nset -e\r\n") [] ⟨"/a.sh", "sh"⟩
    result = analyze {} (scriptOf "#!/bin/bash\nset -e\n") [] ⟨"/a.sh", "sh"⟩ ∧
      result.findings.map (·.check) = ["pipefail", "description-header", "env-integration"] := by
  have hends : RewritesLineEnds "#!/bin/bash\nset -e\n".toList "#!/bin/bash\r\nset -e\r\n".toList :=
    .crlf (by decide)
  obtain ⟨hr, hmode⟩ := reads_scriptOf "#!/bin/bash\nset -e\n"
  obtain ⟨hr', hmode'⟩ := reads_scriptOf "#!/bin/bash\r\nset -e\r\n"
  have hsame :=
    @analyze_line_ends {} none _ _ [] [] _ _ _ hr hr' hends (hmode'.trans hmode.symm) rfl
    (by decide) (by decide)
  refine ⟨hsame, ?_⟩
  rw [analyze_of_checked _ hr' (by decide), Candidate.script, hmode']
  decide +kernel

end ScriptLint
