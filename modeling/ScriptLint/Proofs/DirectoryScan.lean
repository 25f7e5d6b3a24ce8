import ScriptLint.Proofs.ByteOrder
import ScriptLint.Proofs.Scan

/-!
What a scan of a directory finds. Main statement: `scan_eq_visible`, the files with visible names
that the filter includes, each once and in the order of the bytes of their paths.
-/

namespace ScriptLint

theorem pairwise_sortPaths {paths : List String} (h : paths.Nodup) :
    (sortPaths paths).Pairwise fun p q => bytesOf p < bytesOf q := by
  have hle : (sortPaths paths).Pairwise fun p q => decide (p ≤ q) = true :=
    List.pairwise_mergeSort (by simpa using fun p q r => le_trans) (by simpa using le_total) paths
  have hne : (sortPaths paths).Nodup := (List.mergeSort_perm paths _).nodup_iff.mpr h
  refine (hle.and hne).imp fun {p q} ⟨hle, hne⟩ => bytesOf_lt ?_
  exact lt_of_le_of_ne (of_decide_eq_true hle) hne

section Directory

variable {t : FileTree} {cwd root l : Location} {dir : String} {filter : Filter} {recursive : Bool}
  {written excludes : List String} {uncompilable : List Glob → Option String} {name : List Char}

theorem path_scanDirectory :
    (scanDirectory t filter recursive root).map Candidate.path =
      sortPaths (keepFirst ((t.filesIn recursive root).filter filter.includes)) := by
  rw [scanDirectory, List.map_map]
  exact List.map_id _

theorem mem_path_scanDirectory (hw : t.WellFormed) (hd : t.get? root = some .directory)
    (hs : isTooLong root.toPath = false) {p : String} :
    p ∈ (scanDirectory t filter recursive root).map Candidate.path ↔
      ∃ names, p = (root ++ names : Location).toPath ∧ t.Visible recursive root names ∧
        filter.includes p = true := by
  rw [path_scanDirectory, sortPaths, List.mem_mergeSort, mem_keepFirst, List.mem_filter,
    FileTree.mem_filesIn_iff hw hd hs]
  simp only [exists_and_right, ← and_assoc]

/-- The files in a directory itself are visible, whether the scan is recursive or not. -/
theorem FileTree.WellFormed.visible_of_file {bytes : ByteArray} {mode : Nat} (hw : t.WellFormed)
    (hd : t.get? root = some .directory) (hs : isTooLong root.toPath = false)
    (hg : t.get? (root ++ [name]) = some (.file bytes mode)) (recursive : Bool) :
    t.Visible recursive root [name] := by
  have hlink : ¬ t.EndsInLink (root ++ [name]) := by
    rw [FileTree.endsInLink_append_singleton (hw.leads hd).follow_eq]
    rintro ⟨target, hlink⟩
    cases hg.symm.trans hlink
  refine ⟨List.cons_ne_nil name [], ⟨_, hw.fileAt hg⟩, fun _ => rfl, fun p hp hback => ?_,
    by simpa using hs,
    fun h => absurd h hlink⟩
  obtain ⟨hend, q, _, hq, hne, _⟩ := hback
  rcases List.prefix_cons_iff.mp hp with rfl | ⟨rest, rfl, hrest⟩
  · exact hne (List.prefix_nil.mp hq)
  · cases List.prefix_nil.mp hrest
    exact hlink hend

/-- A scan of a directory fails if the path of the directory is too long. Else it gives candidates,
in the order of the bytes of their paths and thus each once. Their paths are those of the visible
names below the directory that the filter includes. Each of them has the extension of its path,
which is one of those that the user has written, normalized and not empty. -/
theorem scan_eq_visible (hw : t.WellFormed) (hl : t.locate cwd dir = .ok root)
    (hd : t.get? root = some .directory)
    (hf : Filter.ofPatterns written excludes uncompilable = .ok filter)
    (recursive : Bool) :
    if isTooLong root.toPath then scan t cwd filter recursive dir =
      .error (.fileRead dir .nameTooLong)
    else ∃ cs, scan t cwd filter recursive dir = .ok cs ∧
      (cs.map Candidate.path).Pairwise (fun p q => bytesOf p < bytesOf q) ∧
      (∀ p, p ∈ cs.map Candidate.path ↔
        ∃ names, p = (root ++ names : Location).toPath ∧ t.Visible recursive root names ∧
          filter.includes p = true) ∧
      ∀ c ∈ cs, Path.extension? c.path = some c.extension ∧ c.extension ∈ filter.extensions ∧
        c.extension ≠ "" ∧ ∃ extension ∈ written, normalizeExtension extension = c.extension := by
  rw [scan_directory hl hd]
  split
  · rfl
  · next hs =>
    refine ⟨_, rfl, ?_, fun p => mem_path_scanDirectory hw hd (eq_false_of_ne_true hs),
      fun c hc => ?_⟩
    · rw [path_scanDirectory]
      exact pairwise_sortPaths (nodup_keepFirst _)
    · obtain ⟨p, _, hi, rfl⟩ := mem_scanDirectory.mp hc
      obtain ⟨extension, hm, he⟩ := Filter.exists_extension_of_includes hi
      have hext : (Candidate.ofPath p).extension = extension := by
        simp [Candidate.ofPath, Path.extensionOrEmpty, he]
      rw [hext]
      exact ⟨he, hm, mem_normalizeExtensions.mp (Filter.extensions_ofPatterns hf ▸ hm)⟩

theorem ofPatterns_sh : Filter.ofPatterns ["*.sh"] [] = .ok ⟨["sh"], []⟩ := by
  have hsh : normalizeExtensions ["*.sh"] = ["sh"] := by decide
  rw [Filter.ofPatterns_nil, hsh]

/-- The link that the scan has found has a visible name. -/
theorem scan_eq_visible_linkedScripts :
    ∃ names : Location, "/bin/r.sh" = Location.toPath (['b', 'i', 'n'] :: names) ∧
      linkedScripts.Visible false [['b', 'i', 'n']] names ∧
      Filter.includes ⟨["sh"], []⟩ "/bin/r.sh" = true := by
  have h := scan_eq_visible (by decide) locate_linkedScripts (by decide) ofPatterns_sh false
  rw [if_neg (by decide)] at h
  obtain ⟨cs, hs, _, hmem, _⟩ := h
  cases hs.symm.trans scan_linkedScripts
  exact (hmem _).mp (List.mem_singleton_self _)

/-- The system takes the path of what it finds to be a file. -/
theorem isTooLong_of_isFile (hn : ∀ n ∈ l, IsName n) (h : t.isFile cwd l.toPath = true) :
    isTooLong l.toPath = false := by
  cases hl : t.locate cwd l.toPath with
  | error e =>
    rw [FileTree.isFile, FileTree.entryAt?, hl] at h
    cases h
  | ok k => exact ((FileTree.locate_toPath hn).mp hl).1

/-- A scan finds what the system takes to be a file below a directory, if the filter includes it,
and nothing else. -/
def ScansAll : Prop :=
  ∀ (t : FileTree) (cwd root : Location) (dir : String) (written excludes : List String)
    (filter : Filter)
      (recursive : Bool),
    t.WellFormed → t.locate cwd dir = .ok root → t.get? root = some .directory →
      Filter.ofPatterns written excludes = .ok filter →
        ∃ cs, scan t cwd filter recursive dir = .ok cs ∧
          ∀ p, p ∈ cs.map Candidate.path ↔
            ∃ names, names ≠ [] ∧ p = (root ++ names : Location).toPath ∧ t.isFile [] p = true ∧
              filter.includes p = true ∧ (recursive = false → names.length = 1) ∧
              ∀ q, q <+: names → ¬ t.LeadsBack root q

/-- Directories so deep that the path of one more of them is too long. -/
def deepWay : Location := List.replicate 15 (List.replicate 255 'd')

/-- A name with which the path of a file is too long. -/
def longName : List Char := List.replicate 252 'b' ++ ['.', 's', 'h']

def deepScripts : FileTree :=
  ⟨(List.range 15).map (fun n => (deepWay.take (n + 1), .directory)) ++
    [(deepWay ++ [longName], .file .empty 0o755)]⟩

theorem wellFormed_deepScripts : deepScripts.WellFormed := by
  decide +kernel

theorem not_endsInLink_deepScripts (way : Location) : ¬ deepScripts.EndsInLink way := by
  rintro ⟨_, name, here, target, _, _, hg⟩
  have hm := FileTree.mem_entries_of_get? (by simp) hg
  simp [deepScripts] at hm

theorem isTooLong_deepWay : isTooLong deepWay.toPath = false ∧
    isTooLong (deepWay ++ [longName] : Location).toPath = true := by
  simp only [isTooLong_toPath]
  decide +kernel

theorem includes_toPath (h : ∀ n ∈ l ++ [name], IsName n)
    (he : Path.nameExtension? name = some ['s', 'h']) :
    Filter.includes ⟨["sh"], []⟩ (l ++ [name] : Location).toPath = true := by
  rw [Filter.includes, Location.extension?_toPath h, he]
  rfl

theorem locate_deepScripts : deepScripts.locate [] "/" = .ok [] :=
  (@FileTree.locate_toPath deepScripts [] [] _ (by simp)).mpr ⟨by decide, FileTree.follow_nil⟩

/-- A scan of the whole tree finds the files whose directories have paths that can be used. -/
theorem mem_scan_deepScripts {cs : List Candidate} {bytes : ByteArray} {mode : Nat}
    (hs : scan deepScripts [] ⟨["sh"], []⟩ true "/" = .ok cs)
    (hfile : deepScripts.get? (l ++ [name]) = some (.file bytes mode))
    (he : Path.nameExtension? name = some ['s', 'h']) :
    (l ++ [name] : Location).toPath ∈ cs.map Candidate.path ↔ isTooLong l.toPath = false := by
  have hf := (wellFormed_deepScripts.fileAt hfile)
  rw [scan_directory locate_deepScripts rfl, if_neg (by decide)] at hs
  cases hs
  rw [mem_path_scanDirectory wellFormed_deepScripts rfl (by decide)]
  simp only [FileTree.visible_iff not_endsInLink_deepScripts, List.nil_append]
  constructor
  · rintro ⟨names, hp, ⟨_, ⟨k, hk⟩, hfits⟩, _⟩
    cases (Location.toPath_inj hf.isName hk.isName).mp hp
    simpa using hfits
  · intro hfits
    exact ⟨_, rfl, ⟨by simp, ⟨_, hf⟩, by simpa using hfits⟩, includes_toPath hf.isName he⟩

/-- In a directory whose path is just not too long, a scan finds a file that the system does not
take. -/
theorem not_scansAll : ¬ ScansAll := by
  intro h
  obtain ⟨hdeep, hlong⟩ := isTooLong_deepWay
  obtain ⟨cs, hs, hmem⟩ :=
    h deepScripts [] [] "/" ["*.sh"] [] _ true wellFormed_deepScripts locate_deepScripts rfl
      ofPatterns_sh
  have hfile : deepScripts.get? (deepWay ++ [longName]) = some (.file .empty 0o755) := by
    decide +kernel
  have hf := wellFormed_deepScripts.fileAt hfile
  have hext : Path.nameExtension? longName = some ['s', 'h'] := by decide +kernel
  obtain ⟨names, _, _, hisFile, _⟩ := (hmem _).mp ((mem_scan_deepScripts hs hfile hext).mpr hdeep)
  cases hlong.symm.trans (isTooLong_of_isFile hf.isName hisFile)

end Directory

end ScriptLint
