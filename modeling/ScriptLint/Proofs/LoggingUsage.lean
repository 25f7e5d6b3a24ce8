import ScriptLint.Proofs.LineEnds
import ScriptLint.Proofs.WrongColors

/-!
The check of the logging. It reads the groups of color definitions, one color after the other, and
searches the whole text for the logging functions; what it reports is told by the lines alone. Main
statements: `mem_flatMap_ofLines_iff`, the groups together hold the definitions of all lines,
`firstReadonly?_eq_some_iff`, the least number among them is that of the first readonly line of the
file, and `loggingFindings_readonly`.
-/

namespace ScriptLint

/-- The line makes a color of the palette readonly. -/
def MakesReadonly (palette : Palette) (line : Line) : Prop :=
  ∃ color ∈ palette.entries, Shell.Assigns line ⟨color.1.toList, true⟩

/-- Line `n` is the first line of the script that makes a color readonly. -/
structure FirstReadonly (palette : Palette) (script : Script) (n : Nat) : Prop where
  defined : ∃ line, (n, line) ∈ script.numberedLines ∧ MakesReadonly palette line
  first : ∀ m line, (m, line) ∈ script.numberedLines → MakesReadonly palette line → n ≤ m

/-- One of the logging functions stands on the line as a whole word. -/
def MentionsLogging (line : Line) : Prop :=
  ∃ name ∈ loggingFunctions, HasWord name.toList line

/-- What the check of the logging says. -/
def unusedColors : String :=
  "colors defined but unused by logging (expected one of: log_error, log_success, log_info, log_warn)"

variable {palette : Palette} {script : Script} {line : Line} {n : Nat}

/-! ## From groups to lines -/

namespace ColorDefinitions

variable {ls : List (Nat × Line)} {d : ColorDefinition}

theorem exists_readonly_iff :
    (∃ name, colorAssignment? palette line = some (name, true)) ↔ MakesReadonly palette line := by
  constructor
  · rintro ⟨name, h⟩
    obtain ⟨hassigns, hlookup⟩ := colorAssignment?_eq_some_iff.mp h
    obtain ⟨color, hcolor, rfl⟩ := Palette.isSome_lookup_iff.mp hlookup
    exact ⟨color, hcolor, hassigns⟩
  · rintro ⟨color, hcolor, hassigns⟩
    have hknown := Palette.isSome_lookup_iff.mpr ⟨color, hcolor, rfl⟩
    exact ⟨color.1, colorAssignment?_eq_some_iff.mpr ⟨hassigns, hknown⟩⟩

/-- The groups hold the definitions of all lines, and nothing else. -/
theorem mem_flatMap_ofLines_iff :
    d ∈ (ofLines palette ls).flatMap (·.2) ↔
      (d.number, d.line) ∈ ls ∧ ∃ name, colorAssignment? palette d.line =
        some (name, d.readonly) := by
  constructor
  · intro h
    obtain ⟨⟨name, ds⟩, hgroup, hd⟩ := List.mem_flatMap.mp h
    obtain ⟨hm, hassigns⟩ := drawn_ofLines palette ls name ds hgroup d hd
    exact ⟨hm, name, hassigns⟩
  · rintro ⟨hm, name, hassigns⟩
    have hd : d ∈ ls.filterMap (definition? palette name) :=
      List.mem_filterMap.mpr ⟨_, hm, definition?_eq_some_iff.mpr ⟨rfl, hassigns⟩⟩
    rw [← getD_lookup_ofLines] at hd
    cases hlookup : (ofLines palette ls).lookup name with
    | none =>
      rw [hlookup] at hd
      cases hd
    | some ds =>
      rw [hlookup] at hd
      exact List.mem_flatMap.mpr ⟨(name, ds), Keyed.mem_of_lookup_eq_some hlookup, hd⟩

/-- The numbers of the lines that make a color readonly, in whatever order the groups hold them. -/
theorem mem_readonlyNumbers_iff :
    n ∈ (((ofLines palette ls).flatMap (·.2)).filter (·.readonly)).map (·.number) ↔
      ∃ line, (n, line) ∈ ls ∧ MakesReadonly palette line := by
  simp only [List.mem_map, List.mem_filter, mem_flatMap_ofLines_iff]
  constructor
  · rintro ⟨d, ⟨⟨hm, name, hassigns⟩, hreadonly⟩, rfl⟩
    rw [hreadonly] at hassigns
    exact ⟨d.line, hm, exists_readonly_iff.mp ⟨name, hassigns⟩⟩
  · rintro ⟨line, hm, hreadonly⟩
    obtain ⟨name, hassigns⟩ := exists_readonly_iff.mpr hreadonly
    exact ⟨⟨n, line, true⟩, ⟨⟨hm, name, hassigns⟩, rfl⟩, rfl⟩

end ColorDefinitions

open ColorDefinitions

theorem firstReadonly?_eq_some_iff :
    firstReadonly? (ofLines palette script.numberedLines) = some n ↔
      FirstReadonly palette script n := by
  rw [firstReadonly?, List.min?_eq_some_iff, mem_readonlyNumbers_iff]
  constructor
  · rintro ⟨hdefined, hfirst⟩
    exact ⟨hdefined,
      fun m line hm hreadonly => hfirst m (mem_readonlyNumbers_iff.mpr ⟨line, hm, hreadonly⟩)⟩
  · rintro ⟨hdefined, hfirst⟩
    refine ⟨hdefined, fun m hm => ?_⟩
    obtain ⟨line, hm, hreadonly⟩ := mem_readonlyNumbers_iff.mp hm
    exact hfirst m line hm hreadonly

theorem firstReadonly?_eq_none_iff :
    firstReadonly? (ofLines palette script.numberedLines) = none ↔
      ∀ line ∈ script.lines, ¬MakesReadonly palette line := by
  rw [firstReadonly?, List.min?_eq_none_iff, List.eq_nil_iff_forall_not_mem]
  constructor
  · intro h line hline hreadonly
    obtain ⟨n, hm⟩ := exists_mem_numbered_iff.mpr hline
    exact h n (mem_readonlyNumbers_iff.mpr ⟨line, hm, hreadonly⟩)
  · intro h n hn
    obtain ⟨line, hm, hreadonly⟩ := mem_readonlyNumbers_iff.mp hn
    exact h line (exists_mem_numbered_iff.mp ⟨n, hm⟩) hreadonly

theorem exists_firstReadonly (h : ∃ line ∈ script.lines, MakesReadonly palette line) :
    ∃ n, FirstReadonly palette script n := by
  cases hfirst : firstReadonly? (ofLines palette script.numberedLines) with
  | none =>
    obtain ⟨line, hline, hreadonly⟩ := h
    exact absurd hreadonly (firstReadonly?_eq_none_iff.mp hfirst line hline)
  | some n => exact ⟨n, firstReadonly?_eq_some_iff.mp hfirst⟩

/-! ## Mentions of the logging -/

/-- A name without line ends is a whole word of the text exactly if it is one of a line: line ends
are no word characters. -/
theorem any_hasWord_text_iff :
    (loggingFunctions.any fun name => hasWord name.toList script.text) = true ↔
      ∃ line ∈ script.lines, MentionsLogging line := by
  have hnames : ∀ name ∈ loggingFunctions, name.toList ≠ [] ∧ NoBreaks name.toList := by decide
  have hlines (name : String) (hname : name ∈ loggingFunctions) :
      hasWord name.toList script.text = true ↔ ∃ line ∈ script.lines, HasWord name.toList line := by
    obtain ⟨hne, hbreaks⟩ := hnames name hname
    rw [(splitsAtBreaks_hasWord hne hbreaks).eq_any_lines, List.any_eq_true]
    simp only [hasWord_iff hne]
    rfl
  rw [List.any_eq_true]
  constructor
  · rintro ⟨name, hname, h⟩
    obtain ⟨line, hline, h⟩ := (hlines name hname).mp h
    exact ⟨line, hline, name, hname, h⟩
  · rintro ⟨line, hline, name, hname, h⟩
    exact ⟨name, hname, (hlines name hname).mpr ⟨line, hline, h⟩⟩

theorem loggingFindings_of_mentions (h : ∃ line ∈ script.lines, MentionsLogging line) :
    loggingFindings palette script = [] := by
  unfold loggingFindings
  split
  · rfl
  · exact if_pos (any_hasWord_text_iff.mpr h)

theorem loggingFindings_of_none (h : ∀ line ∈ script.lines, ¬MakesReadonly palette line) :
    loggingFindings palette script = [] := by
  rw [loggingFindings, firstReadonly?_eq_none_iff.mpr h]

theorem loggingFindings_of_first (hn : FirstReadonly palette script n)
    (h : ∀ line ∈ script.lines, ¬MentionsLogging line) :
    loggingFindings palette script = [Check.loggingUsage.warn unusedColors (some n)] := by
  have hmessage : "colors defined but unused by logging (expected one of: " ++
      String.intercalate ", " loggingFunctions ++ ")" = unusedColors := by
    decide
  rw [loggingFindings, firstReadonly?_eq_some_iff.mpr hn]
  simp only [hmessage]
  refine if_neg fun hany => ?_
  obtain ⟨line, hline, hmentions⟩ := any_hasWord_text_iff.mp hany
  exact h line hline hmentions

/-- The check of the logging warns exactly of the scripts in which a line makes a color readonly and
no line mentions one of the logging functions as a whole word. It warns once, and of the first of
the readonly lines, whichever color that line defines and wherever else colors are defined. -/
theorem loggingFindings_readonly (palette : Palette) (script : Script) :
    ((loggingFindings palette script).length = 1 ↔
      (∃ line ∈ script.lines, MakesReadonly palette line) ∧
        ∀ line ∈ script.lines, ¬MentionsLogging line) ∧
    (loggingFindings palette script = [] ∨
      ∃ n, FirstReadonly palette script n ∧
        loggingFindings palette script = [Check.loggingUsage.warn unusedColors (some n)]) := by
  by_cases h : (∃ line ∈ script.lines, MakesReadonly palette line) ∧
    ∀ line ∈ script.lines, ¬MentionsLogging line
  · obtain ⟨n, hn⟩ := exists_firstReadonly h.1
    have hwarns := loggingFindings_of_first hn h.2
    exact ⟨iff_of_true (by rw [hwarns]; rfl) h, .inr ⟨n, hn, hwarns⟩⟩
  · have hnil : loggingFindings palette script = [] := by
      rcases not_and_or.mp h with hplain | hmentions
      · exact loggingFindings_of_none (by simpa using hplain)
      · exact loggingFindings_of_mentions (by simpa using hmentions)
    exact ⟨iff_of_false (by simp [hnil]) h, .inl hnil⟩

/-- The group of `RED` comes first, but the first readonly line defines `BLUE`; `my_log_info` is
another word. -/
example : loggingFindings .standard
    { path := "/a.sh", extension := "sh",
      text := "RED=1\nreadonly BLUE=2\nreadonly RED=3\nmy_log_info\n".toList } =
      [Check.loggingUsage.warn unusedColors (some 2)] := by
  decide +kernel

end ScriptLint
