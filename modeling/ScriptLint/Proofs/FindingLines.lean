import ScriptLint.Proofs.ColorGroups
import ScriptLint.Proofs.Findings
import ScriptLint.Proofs.FunctionBodies

/-!
Where findings are, and how many a check reports. Main statements: `Check.located_of_mem_evaluate`,
a finding is on one of the lines of the script, or on the first line of an empty one,
`Check.evaluate_once`, nine checks report at most once, `messages_paletteFindings`, once for each
color, and `lines_localFindings`, functions line after line.
-/

namespace ScriptLint

/-- The finding is on one of the first `n` lines, if it is on a line at all. -/
def Finding.Located (n : Nat) (f : Finding) : Prop :=
  ∀ number, f.line = some number → 1 ≤ number ∧ number ≤ n

/-- The number of lines on which findings may be: the first line counts also if it is missing. -/
def Script.reach (script : Script) : Nat :=
  max 1 script.lines.length

/-- At most one finding, on one of the first `n` lines. -/
structure ReportsOnce (n : Nat) (findings : List Finding) : Prop where
  length_le : findings.length ≤ 1
  located : ∀ f ∈ findings, f.Located n

section Once

variable {n : Nat}

theorem reportsOnce_nil (n : Nat) : ReportsOnce n [] :=
  ⟨Nat.zero_le 1, nofun⟩

theorem reportsOnce_singleton {f : Finding} (h : f.Located n) : ReportsOnce n [f] :=
  ⟨Nat.le_refl 1, List.forall_mem_singleton.mpr h⟩

theorem located_of_line_eq_none {f : Finding} (h : f.line = none) : f.Located n := by
  intro number he
  rw [h] at he
  cases he

theorem located_of_line_eq_some {f : Finding} {number : Nat} (h : f.line = some number)
    (hlow : 1 ≤ number) (hhigh : number ≤ n) : f.Located n := by
  intro number' he
  rw [h] at he
  cases he
  exact ⟨hlow, hhigh⟩

theorem reportsOnce_ite {p : Prop} [Decidable p] {findings : List Finding}
    (h : ReportsOnce n findings) :
    ReportsOnce n (if p then [] else findings) := by
  split
  · exact reportsOnce_nil n
  · exact h

end Once

variable {settings : Settings} {palette : Palette} {script : Script}

theorem Script.one_le_reach (script : Script) : 1 ≤ script.reach :=
  Nat.le_max_left 1 _

theorem Script.bounds_of_mem_numberedLines {n : Nat} {line : Line}
    (h : (n, line) ∈ script.numberedLines) :
    1 ≤ n ∧ n ≤ script.reach := by
  obtain ⟨hlow, hhigh, _⟩ := bounds_of_mem_numbered h
  exact ⟨hlow, Nat.le_trans hhigh (Nat.le_max_right 1 _)⟩

/-! ## Checks that report once -/

theorem syntaxFindings_once (settings : Settings) (script : Script) :
    ReportsOnce script.reach (syntaxFindings settings script) := by
  unfold syntaxFindings
  split
  · unfold validationFindings
    split
    · exact reportsOnce_nil _
    · split
      · exact reportsOnce_singleton (located_of_line_eq_none rfl)
      · exact reportsOnce_singleton (located_of_line_eq_none rfl)
    · exact reportsOnce_singleton (located_of_line_eq_none rfl)
  · exact reportsOnce_nil _

theorem shebangFindings_once (script : Script) :
    ReportsOnce script.reach (shebangFindings script) := by
  unfold shebangFindings
  simp only
  split
  · exact reportsOnce_singleton (located_of_line_eq_some rfl (Nat.le_refl 1) script.one_le_reach)
  · split
    · exact reportsOnce_ite
        (reportsOnce_singleton (located_of_line_eq_some rfl (Nat.le_refl 1) script.one_le_reach))
    · exact reportsOnce_nil _

theorem failFastFindings_once (script : Script) :
    ReportsOnce script.reach (failFastFindings script) :=
  reportsOnce_ite (reportsOnce_singleton (located_of_line_eq_none rfl))

theorem pipefailFindings_once (script : Script) :
    ReportsOnce script.reach (pipefailFindings script) :=
  reportsOnce_ite (reportsOnce_singleton (located_of_line_eq_none rfl))

theorem executableFindings_once (script : Script) :
    ReportsOnce script.reach (executableFindings script) := by
  unfold executableFindings
  split
  · split
    · exact reportsOnce_singleton (located_of_line_eq_none rfl)
    · exact reportsOnce_nil _
  · exact reportsOnce_nil _

/-- The first line that makes a color readonly is a line of the script. -/
theorem bounds_of_firstReadonly? {number : Nat}
    (h : firstReadonly? (ColorDefinitions.ofLines palette script.numberedLines) = some number) :
    1 ≤ number ∧ number ≤ script.reach := by
  have hm := List.min?_mem h
  obtain ⟨d, hd, rfl⟩ := List.mem_map.mp hm
  obtain ⟨⟨name, ds⟩, hgroup, hd⟩ := List.mem_flatMap.mp (List.mem_filter.mp hd).1
  have hdrawn := ColorDefinitions.drawn_ofLines palette script.numberedLines name ds hgroup d hd
  exact Script.bounds_of_mem_numberedLines hdrawn.1

theorem loggingFindings_once (palette : Palette) (script : Script) :
    ReportsOnce script.reach (loggingFindings palette script) := by
  unfold loggingFindings
  split
  · exact reportsOnce_nil _
  · next number h =>
    obtain ⟨hlow, hhigh⟩ := bounds_of_firstReadonly? h
    exact reportsOnce_ite (reportsOnce_singleton (located_of_line_eq_some rfl hlow hhigh))

theorem constantFindings_once (script : Script) :
    ReportsOnce script.reach (constantFindings script) := by
  unfold constantFindings
  refine reportsOnce_ite ?_
  simp only
  split
  · next n name h =>
    obtain ⟨⟨n', line⟩, hm, he⟩ := List.exists_of_findSome?_eq_some h
    obtain ⟨name', _, he⟩ := Option.map_eq_some_iff.mp he
    cases he
    obtain ⟨hlow, hhigh⟩ := Script.bounds_of_mem_numberedLines hm
    exact reportsOnce_singleton (located_of_line_eq_some rfl hlow hhigh)
  · exact reportsOnce_nil _

theorem descriptionFindings_once (script : Script) :
    ReportsOnce script.reach (descriptionFindings script) := by
  unfold descriptionFindings
  split
  · next first second others h =>
    have hreach : 2 ≤ script.reach := by
      rw [Script.reach, h]
      exact Nat.le_trans (Nat.le_add_left 2 others.length) (Nat.le_max_right 1 _)
    exact reportsOnce_ite (reportsOnce_singleton (located_of_line_eq_some rfl (by decide) hreach))
  · exact reportsOnce_nil _

theorem envFindings_once (settings : Settings) (script : Script) :
    ReportsOnce script.reach (envFindings settings script) := by
  unfold envFindings
  split
  · exact reportsOnce_ite (reportsOnce_singleton (located_of_line_eq_none rfl))
  · exact reportsOnce_nil _

/-! ## Checks that report more than once -/

/-- What the finding on a color says. -/
def wrongColor (color : String × String) : String :=
  "incorrect color code for " ++ color.1 ++ " (expected: " ++ color.2 ++ ")"

theorem located_of_mem_paletteFindings {f : Finding} (hf : f ∈ paletteFindings palette script) :
    f.Located script.reach := by
  obtain ⟨⟨name, code⟩, _, he⟩ := List.mem_filterMap.mp hf
  simp only at he
  split at he
  · cases he
  · cases he
  · next first others hgroup =>
    split at he
    · cases he
    · cases he
      have hdrawn := ColorDefinitions.drawn_ofLines palette script.numberedLines name _
        (Keyed.mem_of_lookup_eq_some hgroup) first List.mem_cons_self
      obtain ⟨hlow, hhigh⟩ := Script.bounds_of_mem_numberedLines hdrawn.1
      exact located_of_line_eq_some rfl hlow hhigh

/-- Every color is reported at most once, and the colors come in the order of the palette. -/
theorem messages_paletteFindings (palette : Palette) (script : Script) :
    ∃ colors : List (String × String), colors.Sublist palette.entries ∧
      (paletteFindings palette script).map (·.message) = colors.map wrongColor := by
  unfold paletteFindings
  simp only
  induction palette.entries with
  | nil => exact ⟨[], List.Sublist.refl [], rfl⟩
  | cons color entries ih =>
    obtain ⟨colors, hsub, hmessages⟩ := ih
    rw [List.filterMap_cons]
    split
    · exact ⟨colors, hsub.cons color, hmessages⟩
    · next f hf =>
      refine ⟨color :: colors, hsub.cons_cons color, ?_⟩
      rw [List.map_cons, List.map_cons, hmessages]
      split at hf
      · cases hf
      · cases hf
      · split at hf
        · cases hf
        · cases hf
          rfl

/-- Functions are reported on the lines of their declarations, one after the other. -/
theorem lines_localFindings (script : Script) :
    ∃ numbers : List Nat, numbers.Sublist (List.range' 1 script.lines.length) ∧
      (localFindings script).map (·.line) = numbers.map some := by
  refine ⟨(Shell.leakingFunctions none script.numberedLines).map (·.declaredAt), ?_, ?_⟩
  · have h := Shell.map_declaredAt_leakingFunctions none script.numberedLines
    rwa [Script.numberedLines, map_fst_numbered] at h
  · rw [localFindings, List.map_map, List.map_map]
    rfl

theorem located_of_mem_localFindings {f : Finding} (hf : f ∈ localFindings script) :
    f.Located script.reach := by
  obtain ⟨numbers, hsub, hlines⟩ := lines_localFindings script
  have hline := List.mem_map_of_mem (f := (·.line)) hf
  rw [hlines] at hline
  obtain ⟨number, hm, he⟩ := List.mem_map.mp hline
  obtain ⟨hlow, hhigh⟩ := List.mem_range'_1.mp (hsub.subset hm)
  refine located_of_line_eq_some he.symm hlow ?_
  exact Nat.le_trans (by omega) (Nat.le_max_right 1 _)

/-! ## All checks -/

namespace Check

variable {check : Check}

/-- All checks but those of colors and of functions report at most once. -/
theorem evaluate_once (settings : Settings) (script : Script) (hp : check ≠ .palette)
    (hl : check ≠ .localVariables) : ReportsOnce script.reach (check.evaluate settings script) := by
  cases check with
  | shellSyntax => exact syntaxFindings_once settings script
  | shebang => exact shebangFindings_once script
  | failFast => exact failFastFindings_once script
  | pipefail => exact pipefailFindings_once script
  | executable => exact executableFindings_once script
  | palette => exact absurd rfl hp
  | loggingUsage => exact loggingFindings_once settings.palette script
  | readonlyConstants => exact constantFindings_once script
  | localVariables => exact absurd rfl hl
  | descriptionHeader => exact descriptionFindings_once script
  | envIntegration => exact envFindings_once settings script

/-- A finding that is on a line at all is on a line of the script, or on the first line of an empty
script. -/
theorem located_of_mem_evaluate {f : Finding} (hf : f ∈ check.evaluate settings script) :
    f.Located script.reach := by
  by_cases hp : check = .palette
  · subst hp
    exact located_of_mem_paletteFindings hf
  · by_cases hl : check = .localVariables
    · subst hl
      exact located_of_mem_localFindings hf
    · exact (evaluate_once settings script hp hl).located f hf

end Check

end ScriptLint
