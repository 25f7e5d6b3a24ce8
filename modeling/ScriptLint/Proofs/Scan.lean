import Mathlib
import ScriptLint.Proofs.Verdict
import ScriptLint.Proofs.Visible
import ScriptLint.Scan.Scan

/-!
Scanning a directory, and scanning what it has found. A directory gives files under the names that
lead to them, while a path to a file stands for the location of that file. Main statement:
`scan_of_mem_scan`, the two agree exactly where no link lies on the way.
-/

namespace ScriptLint

namespace FileTree

/-- Some name of the way names a link. -/
def CrossesLink (t : FileTree) (way : Location) : Prop :=
  ∃ p target, p <+: way ∧ t.get? p = some (.link target)

variable {t : FileTree} {cwd way k l : Location} {path : String}

theorem isDirectory_iff :
    t.isDirectory cwd path = true ↔
      ∃ l, t.locate cwd path = .ok l ∧ t.get? l = some .directory := by
  rw [isDirectory, entryAt?]
  cases t.locate cwd path with
  | error e => simp
  | ok l => simp

/-- The names of a file lead to it. -/
theorem WellFormed.fileAt (hw : t.WellFormed) {bytes : ByteArray} {mode : Nat}
    (h : t.get? k = some (.file bytes mode)) : t.FileAt k k :=
  ⟨hw.isName_of_get? h, hw.follow_file h, bytes, mode, h⟩

namespace FileAt

/-- The text of a way can be used as long as it is not too long. -/
theorem locate_eq_ok_iff (h : t.FileAt way k) :
    t.locate cwd way.toPath = .ok l ↔ isTooLong way.toPath = false ∧ l = k := by
  rw [locate_toPath h.isName, h.follow]
  refine and_congr_right fun _ => ⟨fun e => ?_, fun e => e ▸ rfl⟩
  cases e
  rfl

theorem self (hw : t.WellFormed) (h : t.FileAt way k) : t.FileAt k k := by
  obtain ⟨bytes, mode, hg⟩ := h.file
  exact hw.fileAt hg

/-- A way leads elsewhere than its names say exactly if there is a link on it. -/
theorem eq_iff_not_crossesLink (hw : t.WellFormed) (h : t.FileAt way k) :
    k = way ↔ ¬ t.CrossesLink way := by
  obtain ⟨bytes, mode, hg⟩ := h.file
  constructor
  · rintro rfl ⟨p, target, ⟨names, rfl⟩, hlink⟩
    cases names with
    | nil =>
      rw [List.append_nil, hlink] at hg
      cases hg
    | cons name names =>
      have hd := hw.get?_of_append (List.cons_ne_nil name names) hg
      cases hlink.symm.trans hd
  · intro hlinks
    exact eq_of_follow h.isName (fun p target hp hl => hlinks ⟨p, target, hp, hl⟩) h.follow

end FileAt

end FileTree

section Candidate

variable {t : FileTree} {cwd way k : Location} {filter : Filter} {recursive : Bool} {dir : String}
  {cs : List Candidate} {c : Candidate}

/-- What a scan makes of the text of a way to a file. -/
theorem scan_toPath (h : t.FileAt way k) (filter : Filter) (recursive : Bool) :
    scan t cwd filter recursive way.toPath =
      if isTooLong way.toPath then .error (.pathNotFound way.toPath)
      else if isTooLong k.toPath then .error (.fileRead way.toPath .nameTooLong)
      else .ok [.ofPath k.toPath] := by
  obtain ⟨bytes, mode, hg⟩ := h.file
  cases hs : isTooLong way.toPath with
  | true =>
    cases hl : t.locate cwd way.toPath with
    | error e => simp only [scan, hl, if_true]
    | ok l =>
      have hf := (h.locate_eq_ok_iff.mp hl).1
      cases hs.symm.trans hf
  | false =>
    have hl : t.locate cwd way.toPath = .ok k := h.locate_eq_ok_iff.mpr ⟨hs, rfl⟩
    simp only [scan, hl, hg, Bool.false_eq_true, if_false]

/-- What a scan makes of a path to a directory. -/
theorem scan_directory (hl : t.locate cwd dir = .ok k) (hd : t.get? k = some .directory) :
    scan t cwd filter recursive dir =
      if isTooLong k.toPath then .error (.fileRead dir .nameTooLong)
      else .ok (scanDirectory t filter recursive k) := by
  simp only [scan, hl, hd]

/-- The candidates in a directory are the files in it that the filter includes. -/
theorem mem_scanDirectory :
    c ∈ scanDirectory t filter recursive k ↔
      ∃ p ∈ t.filesIn recursive k, filter.includes p = true ∧ c = .ofPath p := by
  simp only [scanDirectory, sortPaths, List.mem_map, List.mem_mergeSort, mem_keepFirst,
    List.mem_filter, and_assoc, eq_comm]

/-- A candidate from a directory is a file in it that the filter includes. -/
theorem mem_scan_directory (hd : t.isDirectory cwd dir = true)
    (hs : scan t cwd filter recursive dir = .ok cs) (hc : c ∈ cs) :
    ∃ l p, t.get? l = some .directory ∧ isTooLong l.toPath = false ∧ p ∈ t.filesIn recursive l ∧
      filter.includes p = true ∧ c = .ofPath p := by
  obtain ⟨l, hl, hg⟩ := FileTree.isDirectory_iff.mp hd
  rw [scan_directory hl hg] at hs
  split at hs
  · cases hs
  · next hlong =>
    cases hs
    obtain ⟨p, hp, hi, he⟩ := mem_scanDirectory.mp hc
    exact ⟨l, p, hg, eq_false_of_ne_true hlong, hp, hi, he⟩

/-- A candidate from a directory is the text of a way to a file. -/
theorem fileAt_of_mem_scan (hw : t.WellFormed) (hd : t.isDirectory cwd dir = true)
    (hs : scan t cwd filter recursive dir = .ok cs) (hc : c ∈ cs) :
    ∃ way k, c = .ofPath way.toPath ∧ t.FileAt way k := by
  obtain ⟨l, p, hg, hlong, hp, _, rfl⟩ := mem_scan_directory hd hs hc
  obtain ⟨names, rfl, hv⟩ := (FileTree.mem_filesIn_iff hw hg hlong).mp hp
  obtain ⟨k, hf⟩ := hv.file
  exact ⟨l ++ names, k, rfl, hf⟩

/-- A candidate from a directory has one of the extensions of the filter. -/
theorem extension_mem_of_mem_scan (hd : t.isDirectory cwd dir = true)
    (hs : scan t cwd filter recursive dir = .ok cs) (hc : c ∈ cs) : c.extension ∈
      filter.extensions := by
  obtain ⟨l, p, _, _, _, hi, rfl⟩ := mem_scan_directory hd hs hc
  obtain ⟨extension, hm, he⟩ := Filter.exists_extension_of_includes hi
  simpa [Candidate.ofPath, Path.extensionOrEmpty, he] using hm

/-- A path that leads to no directory stands for one candidate. -/
theorem eq_singleton_of_scan (hd : t.isDirectory cwd dir = false)
    (hs : scan t cwd filter recursive dir = .ok cs) :
    ∃ l, t.locate cwd dir = .ok l ∧ t.get? l ≠ some .directory ∧ cs = [.ofPath l.toPath] := by
  rw [scan] at hs
  cases hl : t.locate cwd dir with
  | error e =>
    rw [hl] at hs
    cases hs
  | ok l =>
    have hg : t.get? l ≠ some .directory := by
      intro hg
      rw [FileTree.isDirectory_iff.mpr ⟨l, hl, hg⟩] at hd
      cases hd
    rw [hl] at hs
    simp only at hs
    split at hs
    · cases hs
    · cases hs
      exact ⟨l, rfl, hg, rfl⟩

/-- A scan of the text of a way that finds anything finds the file under its own path, and both
texts can be used. -/
theorem of_scan_toPath (h : t.FileAt way k) (hs : scan t cwd filter recursive way.toPath = .ok cs) :
    isTooLong way.toPath = false ∧ isTooLong k.toPath = false ∧ cs = [.ofPath k.toPath] := by
  rw [scan_toPath h] at hs
  cases hway : isTooLong way.toPath with
  | true =>
    rw [hway] at hs
    cases hs
  | false =>
    cases hk : isTooLong k.toPath with
    | true =>
      rw [hway, hk] at hs
      cases hs
    | false =>
      rw [hway, hk] at hs
      cases hs
      exact ⟨rfl, rfl, rfl⟩

/-- The text of a way is found again exactly if it can be used and no link lies on the way. -/
theorem scan_toPath_eq_iff (hw : t.WellFormed) (h : t.FileAt way k) (filter : Filter)
    (recursive : Bool) :
    scan t cwd filter recursive way.toPath = .ok [.ofPath way.toPath] ↔
      isTooLong way.toPath = false ∧ ¬ t.CrossesLink way := by
  rw [← h.eq_iff_not_crossesLink hw]
  constructor
  · intro hs
    obtain ⟨hway, _, he⟩ := of_scan_toPath h hs
    have hpath : way.toPath = k.toPath := congrArg Candidate.path (List.cons.inj he).1
    exact ⟨hway, ((Location.toPath_inj h.isName (h.self hw).isName).mp hpath).symm⟩
  · rintro ⟨hway, rfl⟩
    rw [scan_toPath h, hway]
    rfl

/-- What an explicit scan makes of a candidate from a directory. The candidate is the text of a way
to a file. If the system takes that text and the path of the file, the scan finds the file under its
own path, whatever the filter is, and the same text is read from it. The scan finds the candidate
again exactly if no link lies on the way. The verdict is the same at least where the extensions and
the answers of the validator are. -/
theorem scan_of_mem_scan (hw : t.WellFormed) (hd : t.isDirectory cwd dir = true)
    (hs : scan t cwd filter recursive dir = .ok cs) (hc : c ∈ cs) :
    ∃ way k, c = .ofPath way.toPath ∧ t.FileAt way k ∧
      ∀ (filter : Filter) (recursive : Bool),
        (scan t cwd filter recursive c.path =
          if isTooLong c.path then .error (.pathNotFound c.path)
          else if isTooLong k.toPath then .error (.fileRead c.path .nameTooLong)
          else .ok [.ofPath k.toPath]) ∧
        (scan t cwd filter recursive c.path = .ok [c] ↔
          isTooLong c.path = false ∧ ¬ t.CrossesLink way) ∧
        ∀ found, scan t cwd filter recursive c.path = .ok [found] →
          t.read cwd found.path = t.read cwd c.path ∧ t.mode? cwd found.path = t.mode? cwd c.path ∧
          ∀ settings : Settings, found.extension = c.extension →
            (∀ validate, settings.validator = some validate →
              validate found.path = validate c.path) →
            (analyze settings t cwd found).passed = (analyze settings t cwd c).passed := by
  obtain ⟨way, k, rfl, hf⟩ := fileAt_of_mem_scan hw hd hs hc
  refine ⟨way, k, rfl, hf, fun filter recursive => ⟨scan_toPath hf filter recursive,
    scan_toPath_eq_iff hw hf filter recursive, fun found hfound => ?_⟩⟩
  obtain ⟨hway, hk, he⟩ := of_scan_toPath hf hfound
  cases (List.cons.inj he).1
  have hlocate : t.locate cwd k.toPath = t.locate cwd way.toPath := by
    rw [hf.locate_eq_ok_iff.mpr ⟨hway, rfl⟩, (hf.self hw).locate_eq_ok_iff.mpr ⟨hk, rfl⟩]
  have hread : t.read cwd k.toPath = t.read cwd way.toPath := by
    rw [FileTree.read, FileTree.read, hlocate]
  have hmode : t.mode? cwd k.toPath = t.mode? cwd way.toPath := by
    rw [FileTree.mode?, FileTree.mode?, FileTree.entryAt?, FileTree.entryAt?, hlocate]
  exact ⟨hread, hmode, fun settings hext hv => analyze_passed_congr hread hext hv⟩

/-- A directory with a link to a file that lies elsewhere and has another name. -/
def linkedScripts : FileTree :=
  ⟨[([['l', 'i', 'b']], .directory), ([['l', 'i', 'b'], ['r', 'u', 'n']], .file .empty 0o755),
    ([['b', 'i', 'n']], .directory), ([['b', 'i', 'n'], ['r', '.', 's', 'h']], .link "../lib/run")]⟩

theorem fileAt_linkedScripts :
    linkedScripts.FileAt [['b', 'i', 'n'], ['r', '.', 's', 'h']] [['l', 'i', 'b'],
      ['r', 'u', 'n']] := by
  have hget : linkedScripts.get? ([['b', 'i', 'n']] ++ [['r', '.', 's', 'h']]) =
      some (.link "../lib/run") := by
    decide
  refine ⟨by decide, ?_, .empty, 0o755, by decide⟩
  rw [FileTree.follow_directory (by decide) (by decide)]
  refine (FileTree.follow_last_link (by decide) hget).trans ?_
  change linkedScripts.follow 39 [['b', 'i', 'n']] (Path.splitSlash "../lib/run".toList) = _
  cbv

theorem locate_linkedScripts : linkedScripts.locate [] "/bin" = .ok [['b', 'i', 'n']] :=
  (@FileTree.locate_toPath linkedScripts [] [['b', 'i', 'n']] _ (by decide)).mpr ⟨by decide, by cbv⟩

theorem scan_linkedScripts :
    scan linkedScripts [] ⟨["sh"], []⟩ false "/bin" = .ok [⟨"/bin/r.sh", "sh"⟩] := by
  have hdir : linkedScripts.get? [['b', 'i', 'n']] = some .directory := by decide
  have hrun : linkedScripts.locate [] "/bin/r.sh" = .ok [['l', 'i', 'b'], ['r', 'u', 'n']] :=
    fileAt_linkedScripts.locate_eq_ok_iff.mpr ⟨by decide, rfl⟩
  have hlink : linkedScripts.get? [['b', 'i', 'n'], ['r', '.', 's', 'h']] =
      some (.link "../lib/run") := by
    decide
  have hfile : linkedScripts.get? [['l', 'i', 'b'], ['r', 'u', 'n']] =
      some (.file .empty 0o755) := by
    decide
  have hnames : linkedScripts.names [['b', 'i', 'n']] = [['r', '.', 's', 'h']] := by decide
  have hpath : Location.toPath [['b', 'i', 'n']] = "/bin" := by decide
  have hjoin : Path.join "/bin" (String.ofList ['r', '.', 's', 'h']) = "/bin/r.sh" := by decide
  have hwalk : linkedScripts.filesIn false [['b', 'i', 'n']] = ["/bin/r.sh"] := by
    rw [FileTree.filesIn, FileTree.walk, hnames, hpath]
    simp only [List.flatMap_cons, List.flatMap_nil, hjoin]
    split
    · simp_all
    · simp_all
    · split
      · split
        · rfl
        · simp_all
        · simp_all
      · simp_all
    · simp_all
  rw [scan, locate_linkedScripts]
  simp only [hdir, scanDirectory, hwalk]
  have hincludes : ["/bin/r.sh"].filter (Filter.includes ⟨["sh"], []⟩) = ["/bin/r.sh"] := by decide
  have hkept : keepFirst ["/bin/r.sh"] = ["/bin/r.sh"] := by decide
  rw [if_neg (by decide), hincludes, hkept, sortPaths, List.mergeSort_singleton]
  rfl

theorem isDirectory_linkedScripts : linkedScripts.isDirectory [] "/bin" = true :=
  FileTree.isDirectory_iff.mpr ⟨_, locate_linkedScripts, by decide⟩

/-- The candidate for the link is the text of a way to a file. -/
theorem scan_of_mem_scan_linkedScripts :
    ∃ way k, (⟨"/bin/r.sh", "sh"⟩ : Candidate) = .ofPath way.toPath ∧
      linkedScripts.FileAt way k := by
  obtain ⟨way, k, he, hf, _⟩ :=
    scan_of_mem_scan (by decide) isDirectory_linkedScripts scan_linkedScripts
      (List.mem_singleton_self _)
  exact ⟨way, k, he, hf⟩

/-- A candidate that was found as a link in its directory is not found again under its path. -/
theorem scan_linkedScripts_ne :
    ¬ ∀ (t : FileTree) (cwd : Location) (filter : Filter) (recursive : Bool) (dir : String)
        (cs : List Candidate) (c : Candidate),
      t.WellFormed → t.isDirectory cwd dir = true →
        scan t cwd filter recursive dir = .ok cs → c ∈ cs →
        scan t cwd filter recursive c.path = .ok [c] := by
  intro h
  have hs := h linkedScripts [] ⟨["sh"], []⟩ false "/bin" _ _ (by decide) isDirectory_linkedScripts
    scan_linkedScripts (List.mem_singleton_self _)
  have he := (of_scan_toPath fileAt_linkedScripts hs).2.2
  exact absurd he (by decide)

end Candidate

end ScriptLint
