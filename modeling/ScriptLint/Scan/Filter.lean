import ScriptLint.Glob.Match
import ScriptLint.Glob.Parser
import ScriptLint.Path
import ScriptLint.Text.Blank

/-!
Filters: which files of a directory are candidates. A file needs one of the extensions, and none of
the exclude patterns may match its path.
-/

namespace ScriptLint

/-- An extension as the filter compares it: without blanks at its ends, and then without stars and
dots at its start. -/
def normalizeExtension (text : String) : String :=
  String.ofList ((trim text.toList).dropWhile fun c => c == '*' || c == '.')

/-- The list without repetitions; the first of equal elements stays. -/
def keepFirst (l : List String) : List String :=
  l.foldl (fun kept x => if kept.contains x then kept else kept ++ [x]) []

theorem mem_foldl_keep {x : String} (l kept : List String) :
    x ∈ l.foldl (fun kept x => if kept.contains x then kept else kept ++ [x]) kept ↔
      x ∈ kept ∨ x ∈ l := by
  induction l generalizing kept with
  | nil => simp
  | cons y l ih =>
    rw [List.foldl_cons, ih, List.mem_cons]
    split
    · next h =>
      have hy : y ∈ kept := List.contains_iff_mem.mp h
      grind
    · simp [or_assoc]

theorem nodup_foldl_keep (l kept : List String) (h : kept.Nodup) :
    (l.foldl (fun kept x => if kept.contains x then kept else kept ++ [x]) kept).Nodup := by
  induction l generalizing kept with
  | nil => exact h
  | cons y l ih =>
    rw [List.foldl_cons]
    split
    · exact ih kept h
    · next hy =>
      rw [List.contains_iff_mem] at hy
      refine ih _ (List.nodup_append.mpr ⟨h, by simp, ?_⟩)
      intro a ha b hb e
      rw [List.mem_singleton] at hb
      exact hy (hb ▸ e ▸ ha)

@[simp] theorem mem_keepFirst {x : String} {l : List String} : x ∈ keepFirst l ↔ x ∈ l := by
  rw [keepFirst, mem_foldl_keep]
  simp

theorem nodup_keepFirst (l : List String) : (keepFirst l).Nodup :=
  nodup_foldl_keep l [] .nil

/-- Extensions as the filter uses them: normalized, not empty, each once. -/
def normalizeExtensions (extensions : List String) : List String :=
  keepFirst ((extensions.map normalizeExtension).filter (· != ""))

/-- An extension of a filter is one that the user has written, normalized, and not empty. -/
theorem mem_normalizeExtensions {extension : String} {extensions : List String} :
    extension ∈ normalizeExtensions extensions ↔
      extension ≠ "" ∧ ∃ written ∈ extensions, normalizeExtension written = extension := by
  simp [normalizeExtensions, and_comm]

structure Filter where
  extensions : List String
  excludes : List Glob

namespace Filter

/-- The filter for extensions as a user writes them; the first malformed pattern is the error.
Patterns that are well formed can still be too much to be compiled together: `uncompilable` says for
which ones, and why. -/
def ofPatterns (extensions excludes : List String)
    (uncompilable : List Glob → Option String := fun _ => none) : Except Glob.Error Filter := do
  let globs ← excludes.mapM Glob.ofPattern
  match uncompilable globs with
  | some reason => .error { pattern := "combined patterns", kind := .uncompilable reason }
  | none => return { extensions := normalizeExtensions extensions, excludes := globs }

def excludes? (f : Filter) (path : String) : Bool :=
  f.excludes.any (·.isMatch path)

def includes (f : Filter) (path : String) : Bool :=
  (Path.extension? path).any f.extensions.contains && !f.excludes? path

theorem ofPatterns_nil (extensions : List String) :
    ofPatterns extensions [] = .ok ⟨normalizeExtensions extensions, []⟩ :=
  rfl

variable {extensions excludes : List String} {uncompilable : List Glob → Option String} {f : Filter}

/-- A filter can be had exactly if every pattern is well formed and all can be compiled together. -/
theorem ofPatterns_eq_ok_iff :
    ofPatterns extensions excludes uncompilable = .ok f ↔
      ∃ globs, excludes.mapM Glob.ofPattern = .ok globs ∧ uncompilable globs = none ∧
        f = ⟨normalizeExtensions extensions, globs⟩ := by
  rw [ofPatterns]
  cases excludes.mapM Glob.ofPattern with
  | error e => simp [bind, Except.bind]
  | ok globs =>
    cases hu : uncompilable globs with
    | some reason => simp [bind, Except.bind, hu]
    | none => simp [bind, Except.bind, pure, Except.pure, hu, eq_comm]

theorem extensions_ofPatterns (h : ofPatterns extensions excludes uncompilable = .ok f) :
    f.extensions = normalizeExtensions extensions := by
  obtain ⟨globs, -, -, rfl⟩ := ofPatterns_eq_ok_iff.mp h
  rfl

/-- A path that a filter includes has one of its extensions. -/
theorem exists_extension_of_includes {f : Filter} {path : String} (h : f.includes path = true) :
    ∃ extension ∈ f.extensions, Path.extension? path = some extension := by
  have hext := (Bool.and_eq_true_iff.mp h).1
  cases he : Path.extension? path with
  | none =>
    rw [he] at hext
    cases hext
  | some extension =>
    rw [he] at hext
    exact ⟨extension, by simpa using hext, rfl⟩

end Filter

end ScriptLint
