import ScriptLint.Proofs.DirectoryScan
import ScriptLint.Proofs.Twins

/-!
Scanning two trees of which the second one has one more file. Main statements:
`exists_last_of_free`, where no link leads to the place of the file, names lead there only by its
own name, and `scan_eq`, both scans find the same candidates.
-/

namespace ScriptLint

namespace FileTree

variable {t t' : FileTree} {c cwd here k l root way : Location} {links links' : Nat}
  {name : List Char} {names rest : List (List Char)} {path : String} {recursive : Bool} {s : Spot}

/-! ## Names that lead to a free place -/

/-- More links may be followed than are met. -/
theorem follow_mono :
    t.follow links here names = .ok s → ∀ links', links ≤ links' →
      t.follow links' here names = .ok s := by
  fun_induction t.follow links here names with
  | case1 =>
    intro h links' _
    rw [follow_nil, h]
  | case2 links here name rest hf ih =>
    intro h links' hle
    rw [follow_filler hf, ih h links' hle]
  | case3 links here rest _ ih =>
    intro h links' hle
    rw [follow_parent, ih h links' hle]
  | case5 links here name rest hf hp hs next hn hempty =>
    intro h links' _
    rw [follow_name hf hp hs, hn, ← h]
    exact if_pos hempty
  | case7 links here name rest hf hp hs next hn ih =>
    intro h links' hle
    rw [follow_name hf hp hs, hn]
    exact ih h links' hle
  | case8 links here name rest hf hp hs next bytes mode hn hempty =>
    intro h links' _
    rw [follow_name hf hp hs, hn, ← h]
    exact if_pos hempty
  | case11 here name rest hf hp hs next target hn links start ih =>
    intro h links' hle
    obtain ⟨more, rfl⟩ := Nat.exists_eq_add_of_le' hle
    rw [follow_name hf hp hs, hn]
    exact ih h (more + links) (by omega)
  | case4 | case6 | case9 | case10 =>
    intro h
    cases h

/-- The names of a directory lead to it from the root, and no link is met on the way. -/
theorem WellFormed.follow_append (hw : t.WellFormed) (hl : t.get? l = some .directory)
    (rest : List (List Char)) :
    t.follow links [] (l ++ rest) = t.follow links l rest := by
  induction l using List.reverseRecOn generalizing rest with
  | nil => rfl
  | append_singleton l name ih =>
    have hn : IsName name := hw.isName_of_get? hl name (by simp)
    have hd : t.get? l = some .directory := hw.get?_of_append (List.cons_ne_nil name []) hl
    rw [List.append_assoc, ih hd, List.singleton_append, follow_directory hn hl]

/-- No link leads to the place, which is free. -/
def NoLinkTo (t : FileTree) (c : Location) : Prop :=
  ∀ l target, t.get? l = some (.link target) → t.follow maxLinks [] l ≠ .ok (.free c)

theorem SameShape.noLinkTo (h : t.SameShape t') (hno : t.NoLinkTo c) : t'.NoLinkTo c := by
  intro l target hl
  rw [h.follow_eq]
  exact hno l target (h.shrinks.link hl)

/-- Where no link leads to a free place, the last of the names that lead there is that of the place,
in a directory to which the names before it lead. -/
theorem exists_last_of_free (hw : t.WellFormed) (hno : t.NoLinkTo c)
    (hd : t.get? here = some .directory)
    (hlinks : links ≤ maxLinks) (h : t.follow links here names = .ok (.free c)) :
    ∃ above name l, names = above ++ [name] ∧ t.follow links here above = .ok (.taken l) ∧
      c = l ++ [name] := by
  revert hd hlinks h
  fun_induction t.follow links here names with
  | case2 links here name rest hf ih =>
    intro hd hlinks h
    obtain ⟨above, last, l, rfl, hl, hc⟩ := ih hd hlinks h
    exact ⟨name :: above, last, l, rfl, (follow_filler hf).trans hl, hc⟩
  | case3 links here rest _ ih =>
    intro hd hlinks h
    obtain ⟨above, last, l, rfl, hl, hc⟩ := ih (hw.get?_dropLast hd) hlinks h
    exact ⟨_ :: above, last, l, rfl, follow_parent.trans hl, hc⟩
  | case5 links here name rest hf hp hs next hn hempty =>
    intro hd hlinks h
    rw [List.isEmpty_iff] at hempty
    subst hempty
    exact ⟨[], name, here, rfl, follow_nil, (Spot.free.inj (Except.ok.inj h)).symm⟩
  | case7 links here name rest hf hp hs next hn ih =>
    intro hd hlinks h
    obtain ⟨above, last, l, rfl, hl, hc⟩ := ih hn hlinks h
    refine ⟨name :: above, last, l, rfl, ?_, hc⟩
    rw [follow_name hf hp hs, hn]
    exact hl
  | case11 here name rest hf hp hs next target hn links start ih =>
    intro hd hlinks h
    obtain ⟨above, last, l, hnames, hl, hc⟩ :=
      ih (get?_start hd target) (Nat.le_of_succ_le hlinks) h
    cases rest using List.reverseRecOn with
    | nil =>
      -- The link itself leads to the place.
      refine absurd ?_ (hno _ target hn)
      rw [hw.follow_append hd]
      refine follow_mono ?_ maxLinks hlinks
      rw [follow_name hf hp hs, hn]
      exact h
    | append_singleton rest last' =>
      rw [← List.append_assoc] at hnames
      obtain ⟨habove, hlast⟩ := List.append_inj' hnames rfl
      cases hlast
      refine ⟨name :: rest, last, l, rfl, ?_, hc⟩
      rw [follow_name hf hp hs, hn]
      exact (congrArg _ habove).trans hl
  | case1 | case4 | case6 | case8 | case9 | case10 =>
    intro _ _ h
    cases h

/-! ## What is visible in both trees -/

namespace Twins

variable (h : Twins c t t')
include h

/-- Names that lead to the file lead to the free place in the first tree. -/
theorem free_of_taken (hd : t.get? here = some .directory)
    (hf : t'.follow links here names = .ok (.taken c)) :
    t.follow links here names = .ok (.free c) := by
  rcases h.beside.follow_cases links here names with heq | ⟨hfree, _⟩ | ⟨_, _, herr⟩
  · -- In the first tree, names that lead to an entry do not lead here.
    have hentry := get?_of_follow h.wellFormed hd (heq.symm.trans hf)
    simp [h.beside.free] at hentry
  · exact hfree
  · cases hf.symm.trans herr

theorem fileAt (hf : t.FileAt way k) : t'.FileAt way k := by
  obtain ⟨bytes, mode, hg⟩ := hf.file
  exact ⟨hf.isName, h.beside.grows.follow_taken hf.follow, bytes, mode, h.beside.get?_eq hg⟩

theorem endsInLink_iff : t'.EndsInLink way ↔ t.EndsInLink way := by
  constructor
  · rintro ⟨above, name, here, target, rfl, hreach, hg⟩
    have hdir := h.wellFormed'.get?_dropLast hg
    rw [List.dropLast_concat, h.beside.directory_iff] at hdir
    have hhere : here ≠ c := by
      rintro rfl
      cases h.beside.free.symm.trans hdir
    have hlink : here ++ [name] ≠ c := by
      intro hc
      obtain ⟨bytes, mode, hfile⟩ := h.beside.file
      rw [hc, hfile] at hg
      cases hg
    exact ⟨above, name, here, target, rfl, (h.beside.follow_taken_iff hhere).mp hreach,
      (h.beside.others _ hlink).symm.trans hg⟩
  · rintro ⟨above, name, here, target, rfl, hreach, hg⟩
    exact ⟨above, name, here, target, rfl, h.beside.grows.follow_taken hreach, h.beside.get?_eq hg⟩

variable (hno : t.NoLinkTo c)
include hno

theorem not_free_of_endsInLink (hend : t.EndsInLink way) :
    t.follow maxLinks [] way ≠ .ok (.free c) := by
  intro hfree
  obtain ⟨above, name, l, rfl, hl, rfl⟩ :=
    exists_last_of_free h.wellFormed hno (get?_nil t) le_rfl hfree
  obtain ⟨target, hg⟩ := (endsInLink_append_singleton hl).mp hend
  cases h.beside.free.symm.trans hg

theorem leadsBack_iff : t'.LeadsBack root names ↔ t.LeadsBack root names := by
  unfold LeadsBack
  rw [h.endsInLink_iff]
  refine and_congr_right fun hend => exists_congr fun p => exists_congr fun l => ?_
  refine and_congr_right fun _ => and_congr_right fun _ => ?_
  constructor
  · rintro ⟨hp, hl⟩
    have hlc : l ≠ c := by
      rintro rfl
      exact h.not_free_of_endsInLink hno hend (h.free_of_taken (get?_nil t) hl)
    exact ⟨(h.beside.follow_taken_iff hlc).mp hp, (h.beside.follow_taken_iff hlc).mp hl⟩
  · rintro ⟨hp, hl⟩
    exact ⟨h.beside.grows.follow_taken hp, h.beside.grows.follow_taken hl⟩

/-- The same names are visible in both trees, but for those that lead to the file. -/
theorem visible_iff (hfree : t.follow maxLinks [] (root ++ names) ≠ .ok (.free c)) :
    t'.Visible recursive root names ↔ t.Visible recursive root names := by
  have hfile : (∃ k, t'.FileAt (root ++ names) k) ↔ ∃ k, t.FileAt (root ++ names) k := by
    constructor
    · rintro ⟨k, hk⟩
      have hkc : k ≠ c := by
        rintro rfl
        exact hfree (h.free_of_taken (get?_nil t) hk.follow)
      obtain ⟨bytes, mode, hg⟩ := hk.file
      exact ⟨k, hk.isName, (h.beside.follow_taken_iff hkc).mp hk.follow, bytes, mode,
        (h.beside.others k hkc).symm.trans hg⟩
    · rintro ⟨k, hk⟩
      exact ⟨k, h.fileAt hk⟩
  have hback (p : Location) : t'.LeadsBack root p ↔ t.LeadsBack root p := h.leadsBack_iff hno
  have hlink : t'.EndsInLink (root ++ names) ↔ t.EndsInLink (root ++ names) := h.endsInLink_iff
  constructor
  · rintro ⟨hbelow, hf, hdirect, hcycle, hfits, hlinkFits⟩
    exact ⟨hbelow, hfile.mp hf, hdirect, fun p hp hb => hcycle p hp ((hback p).mpr hb), hfits,
      fun hl => hlinkFits (hlink.mpr hl)⟩
  · rintro ⟨hbelow, hf, hdirect, hcycle, hfits, hlinkFits⟩
    exact ⟨hbelow, hfile.mpr hf, hdirect, fun p hp hb => hcycle p hp ((hback p).mp hb), hfits,
      fun hl => hlinkFits (hlink.mp hl)⟩

end Twins

end FileTree

/-! ## Scanning both trees -/

variable {t t' : FileTree} {c cwd k l : Location} {filter filter' : Filter} {recursive : Bool}
  {path : String} {cs : List Candidate}

/-- A scan of a directory is known from its members: they are sorted. -/
theorem scanDirectory_eq
    (hmem : ∀ p, p ∈ (scanDirectory t' filter' recursive l).map Candidate.path ↔
      p ∈ (scanDirectory t filter recursive l).map Candidate.path) :
    scanDirectory t' filter' recursive l = scanDirectory t filter recursive l := by
  have : Std.Irrefl fun p q : String => bytesOf p < bytesOf q := ⟨fun p => List.lt_irrefl _⟩
  have : Std.Antisymm fun p q : String => bytesOf p < bytesOf q :=
    ⟨fun p q hpq hqp => absurd (List.lt_trans hpq hqp) (List.lt_irrefl _)⟩
  simp only [path_scanDirectory] at hmem
  have hpaths :=
    (pairwise_sortPaths (nodup_keepFirst _)).eq_of_mem_iff
      (pairwise_sortPaths (nodup_keepFirst _)) hmem
  exact congrArg (List.map Candidate.ofPath) hpaths

/-- The candidates of a scan are files, and their paths lead to them. -/
theorem exists_fileAt_of_mem_scan {cand : Candidate} (hw : t.WellFormed)
    (hd : t.get? cwd = some .directory)
    (hs : scan t cwd filter recursive path = .ok cs) (hm : cand ∈ cs) :
    ∃ way k, cand = .ofPath way.toPath ∧ t.FileAt way k := by
  cases hdir : t.isDirectory cwd path with
  | true => exact fileAt_of_mem_scan hw hdir hs hm
  | false =>
    obtain ⟨l, hl, hg, rfl⟩ := eq_singleton_of_scan hdir hs
    obtain ⟨bytes, mode, hfile⟩ := (FileTree.get?_of_locate hw hd hl).resolve_left hg
    exact ⟨l, l, List.mem_singleton.mp hm, hw.fileAt hfile⟩

/-- A filter that includes what another one does, but for the files in directories of some names. -/
structure Filter.Hides (names : List (List Char)) (filter filter' : Filter) : Prop where
  includes : ∀ path, filter'.includes path = true → filter.includes path = true
  hides : ∀ way : Location, (∀ n ∈ way, IsName n) → (∀ name ∈ names, name ∉ way.dropLast) →
    filter.includes way.toPath = true → filter'.includes way.toPath = true

/-- The names of the directories that a path tells above its last name. -/
def namesAbove (path : String) : List (List Char) :=
  (Path.splitSlash path.toList).dropLast

theorem namesAbove_toPath {way : Location} (hne : way ≠ []) (hn : ∀ n ∈ way, IsName n) :
    namesAbove way.toPath = [] :: way.dropLast := by
  rw [namesAbove, Location.splitSlash_toPath fun n hm => (hn n hm).noSlash, if_neg hne,
    List.dropLast_cons_of_ne_nil hne]

namespace FileTree.Twins

variable (h : Twins c t t')
include h

/-- A path leads to the same entry in both trees, or to none in either, unless it leads to the
file. -/
theorem locate_cases (hd : t.get? cwd = some .directory) (hfree : t.spot cwd path ≠ .ok (.free c)) :
    (∃ k, t.locate cwd path = .ok k ∧ t'.locate cwd path = .ok k) ∨
      ∃ e e', t.locate cwd path = .error e ∧ t'.locate cwd path = .error e' := by
  cases hl : t.locate cwd path with
  | ok k => exact .inl ⟨k, rfl, h.beside.grows.locate hl⟩
  | error e =>
    cases hl' : t'.locate cwd path with
    | error e' => exact .inr ⟨e, e', rfl, rfl⟩
    | ok k =>
      by_cases hk : k = c
      · subst hk
        obtain ⟨hc, hf⟩ := locate_eq_ok_iff.mp hl'
        rw [spot_of_checkPath hc] at hfree
        exact absurd (h.free_of_taken (get?_start hd path) hf) hfree
      · cases ((h.beside.locate_iff hk).mp hl').symm.trans hl

/-- The path of a file of the first tree leads to the same entry in both trees, and not to the
file. -/
theorem locate_fileAt {way : Location} (hf : t.FileAt way k) (cwd : Location) :
    t'.locate cwd way.toPath = t.locate cwd way.toPath ∧ t'.locate cwd way.toPath ≠ .ok c ∧
      t'.get? k = t.get? k := by
  obtain ⟨bytes, mode, hg⟩ := hf.file
  have hkc : k ≠ c := by
    rintro rfl
    cases h.beside.free.symm.trans hg
  refine ⟨?_, fun hl => hkc ((h.fileAt hf).locate_eq_ok_iff.mp hl).2.symm, h.beside.others k hkc⟩
  cases hs : isTooLong way.toPath with
  | true =>
    have hlong (s : FileTree) : s.locate cwd way.toPath = .error .nameTooLong := by
      rw [FileTree.locate, FileTree.spot, FileTree.checkPath_toPath hf.isName, hs]
      rfl
    rw [hlong, hlong]
  | false =>
    rw [(h.fileAt hf).locate_eq_ok_iff.mpr ⟨hs, rfl⟩, hf.locate_eq_ok_iff.mpr ⟨hs, rfl⟩]

theorem read_fileAt {way : Location} (hf : t.FileAt way k) (cwd : Location) :
    t'.read cwd way.toPath = t.read cwd way.toPath ∧
      t'.mode? cwd way.toPath = t.mode? cwd way.toPath := by
  obtain ⟨hl, _, hg⟩ := h.locate_fileAt hf cwd
  unfold FileTree.read FileTree.mode? FileTree.entryAt?
  rw [hl]
  cases hk : t.locate cwd way.toPath with
  | error e => exact ⟨rfl, rfl⟩
  | ok l =>
    obtain ⟨_, rfl⟩ := hf.locate_eq_ok_iff.mp hk
    simp only [bind, Except.bind, hg]
    exact ⟨trivial, trivial⟩

variable (hno : t.NoLinkTo c)
  (hext : ∀ extension ∈ filter.extensions, Path.extension? c.toPath ≠ some extension)
include hno hext

/-- A name that the filter includes does not lead to the file. -/
theorem not_free_of_includes {way : Location} (hn : ∀ n ∈ way, IsName n)
    (hi : filter.includes way.toPath = true) :
    t.follow maxLinks [] way ≠ .ok (.free c) := by
  intro hfree
  obtain ⟨bytes, mode, hfile⟩ := h.beside.file
  obtain ⟨above, name, l, rfl, _, rfl⟩ :=
    FileTree.exists_last_of_free h.wellFormed hno (get?_nil t) le_rfl hfree
  obtain ⟨extension, hm, he⟩ := Filter.exists_extension_of_includes hi
  refine hext extension hm ?_
  rw [← he, Location.extension?_toPath hn,
    Location.extension?_toPath (h.wellFormed'.isName_of_get? hfile)]

variable {hidden : List (List Char)} (hf : filter.Hides hidden filter')
include hf

theorem scanDirectory_eq (hd : t.get? l = some .directory) (hs : isTooLong l.toPath = false)
    (hhidden : ∀ cand ∈ scanDirectory t filter recursive l, ∀ name ∈
      hidden, name ∉ namesAbove cand.path) :
    scanDirectory t' filter' recursive l = scanDirectory t filter recursive l := by
  refine ScriptLint.scanDirectory_eq fun p => ?_
  rw [mem_path_scanDirectory h.wellFormed' (h.beside.get?_eq hd) hs,
    mem_path_scanDirectory h.wellFormed hd hs]
  constructor
  · rintro ⟨names, rfl, hv, hi⟩
    obtain ⟨k, hk⟩ := hv.file
    have hi := hf.includes _ hi
    have hfree := h.not_free_of_includes hno hext hk.isName hi
    exact ⟨names, rfl, (h.visible_iff hno hfree).mp hv, hi⟩
  · rintro ⟨names, rfl, hv, hi⟩
    obtain ⟨k, hk⟩ := hv.file
    have hfree : t.follow maxLinks [] (l ++ names) ≠ .ok (.free c) := fun hfree => by
      cases hk.follow.symm.trans hfree
    refine ⟨names, rfl, (h.visible_iff hno hfree).mpr hv,
      hf.hides _ hk.isName (fun name hm => ?_) hi⟩
    have hp := (FileTree.mem_filesIn_iff h.wellFormed hd hs).mpr ⟨names, rfl, hv⟩
    have habove := hhidden _ (mem_scanDirectory.mpr ⟨_, hp, hi, rfl⟩) name hm
    rw [Candidate.ofPath, namesAbove_toPath (by simp [hv.below]) hk.isName] at habove
    exact fun hm => habove (List.mem_cons_of_mem _ hm)

/-- A scan finds the same in both trees. -/
theorem scan_eq (hd : t.get? cwd = some .directory) (hfree : t.spot cwd path ≠ .ok (.free c))
    (hhidden : ∀ cs, scan t cwd filter recursive path = .ok cs →
      ∀ cand ∈ cs, ∀ name ∈ hidden, name ∉ namesAbove cand.path) :
    scan t' cwd filter' recursive path = scan t cwd filter recursive path := by
  rcases h.locate_cases hd hfree with ⟨k, hk, hk'⟩ | ⟨e, e', he, he'⟩
  · have hkc : k ≠ c := by
      rintro rfl
      have hentry := get?_of_locate h.wellFormed hd hk
      simp [h.beside.free] at hentry
    by_cases hdir : t.get? k = some .directory
    · rw [scan_directory hk hdir] at hhidden
      rw [scan_directory hk hdir, scan_directory hk' (h.beside.get?_eq hdir)]
      cases hs : isTooLong k.toPath with
      | true => rfl
      | false =>
        rw [hs] at hhidden
        exact congrArg Except.ok (h.scanDirectory_eq hno hext hf hdir hs (hhidden _ rfl))
    · simp only [scan, hk, hk', h.beside.others k hkc]
  · simp only [scan, he, he']

end FileTree.Twins

end ScriptLint
