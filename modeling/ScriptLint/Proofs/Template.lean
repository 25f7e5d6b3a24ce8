import Mathlib
import ScriptLint.Config.Locate
import ScriptLint.Config.Template
import ScriptLint.Proofs.GlobMatch
import ScriptLint.Proofs.Failure

/-!
What the template of a configuration says. Main statement: `parse_template`, it is a configuration
that a run can use, and it states the defaults but for the directories that a scan leaves out.
-/

namespace ScriptLint.Config

/-- The defaults with other directories that a scan leaves out. -/
def excluding (patterns : List String) : Config where
  scan := { exclude := patterns }

/-- The names of the directories that the template leaves out of scans. -/
def hiddenNames : List (List Char) :=
  [".git".toList, "node_modules".toList, "vendor".toList]

/-- The patterns of the template for all that is in these directories. -/
def templateExcludes : List String :=
  ["**/.git/**", "**/node_modules/**", "**/vendor/**"]

theorem toList_template :
    template.toList = templateLines.flatMap fun line => line.toList ++ ['\n'] := by
  simp [template, String.toList_join, List.flatMap_map]

/-- A configuration that differs from the defaults at most in its patterns. -/
theorem eq_excluding {c : Config}
    (h : Config.isDefault { c with scan := { c.scan with exclude := [] } } = true) :
    c = excluding c.scan.exclude := by
  obtain ⟨⟨extensions, recursive, exclude⟩, checks, syntaxCheck, style, ⟨entries, nodup⟩, format⟩ :=
    c
  simp only [isDefault, Palette.isEmpty, Bool.and_eq_true, beq_iff_eq, List.isEmpty_iff] at h
  obtain ⟨⟨⟨⟨⟨hscan, hchecks⟩, hsyntax⟩, hstyle⟩, hentries⟩, hformat⟩ := h
  subst hentries
  cases hscan
  cases hchecks
  cases hsyntax
  cases hstyle
  cases hformat
  rfl

/-- Whether a document gives the defaults with these patterns. -/
def excludes? (patterns : List String) (document : List Char) : Bool :=
  match Toml.document? document with
  | none => false
  | some entries =>
    match ofEntries entries with
    | .ok c =>
      Config.isDefault { c with scan := { c.scan with exclude := [] } } &&
        c.scan.exclude == patterns
    | .error _ => false

theorem ofText_of_excludes? {patterns : List String} {text : String}
    (h : excludes? patterns text.toList = true) :
    ofText text = .ok (excluding patterns) := by
  unfold excludes? at h
  unfold ofText
  split at h
  · cases h
  · next entries hentries =>
    rw [hentries]
    split at h
    · next c hc =>
      rw [Bool.and_eq_true, beq_iff_eq] at h
      obtain ⟨hdefault, rfl⟩ := h
      simp only [hc]
      rw [eq_excluding hdefault]
      rfl
    · cases h

theorem ofText_template : ofText template = .ok (excluding templateExcludes) := by
  refine ofText_of_excludes? ?_
  rw [toList_template]
  simp only [templateLines, List.flatMap_cons, String.reduceToList, List.cons_append,
    List.nil_append, List.flatMap_nil]
  decide +kernel

theorem mapM_ofPattern_templateExcludes :
    templateExcludes.mapM Glob.ofPattern = .ok (hiddenNames.map .allBelow) := by
  have hgit : Glob.ofPattern "**/.git/**" = .ok (.allBelow ".git".toList) := by decide +kernel
  have hmodules : Glob.ofPattern "**/node_modules/**" = .ok (.allBelow "node_modules".toList) := by
    decide +kernel
  have hvendor : Glob.ofPattern "**/vendor/**" = .ok (.allBelow "vendor".toList) := by
    decide +kernel
  simp only [templateExcludes, hiddenNames, List.mapM_cons, List.mapM_nil, hgit, hmodules, hvendor]
  rfl

/-- The defaults can be used with any patterns that are well formed. -/
theorem validate_excluding {patterns : List String}
    (h : ∀ pattern ∈ patterns, ∃ glob, Glob.ofPattern pattern = .ok glob) :
    (excluding patterns).validate = .ok () :=
  validate_eq_ok_iff.mpr ⟨nofun, h, nofun, (validate_eq_ok_iff.mp validate_default).2.2.2⟩

theorem parse_template : parse template = .ok (excluding templateExcludes) := by
  have hvalid := validate_excluding (mapM_ofPattern_ok_iff.mp ⟨_, mapM_ofPattern_templateExcludes⟩)
  exact parse_eq_ok.mpr ⟨ofText_template, hvalid⟩

end ScriptLint.Config
