import Mathlib.Data.List.TakeWhile
import ScriptLint.Proofs.Failure
import ScriptLint.Proofs.Resolution

/-!
How trees grow: files are written, and directories are made where nothing was. Main statements:
`Grows.follow_taken`, names lead where they led as long as entries keep their kinds,
`ensureAll_makes`, the only entries that making directories adds are the directories that it was to
make, and `write_eq_ok`, writing to a path changes the file to which the path leads then.
-/

namespace ScriptLint

/-- Entries of a kind: a file may have other bytes and permission bits, and the rest is the same. -/
inductive Entry.SameKind : Entry → Entry → Prop
  | refl (e : Entry) : SameKind e e
  | file (bytes bytes' : ByteArray) (mode mode' : Nat) : SameKind (.file bytes mode)
    (.file bytes' mode')

theorem Entry.SameKind.trans {e₁ e₂ e₃ : Entry} (h : e₁.SameKind e₂) (h' : e₂.SameKind e₃) :
    e₁.SameKind e₃ := by
  cases h with
  | refl => exact h'
  | file =>
    cases h' with
    | refl => exact .file ..
    | file => exact .file ..

/-- The location of an entry or of a free name. -/
def Spot.location : Spot → Location
  | taken l | free l => l

namespace FileTree

/-- The entries of the first tree are in the second one with their kinds. -/
def Grows (t t' : FileTree) : Prop :=
  ∀ k e, t.get? k = some e → ∃ e', t'.get? k = some e' ∧ e.SameKind e'

variable {t t' t'' : FileTree} {links : Nat} {cwd here k l : Location} {name : List Char}
  {names : List (List Char)} {path : String} {e : Entry} {bytes : ByteArray}

/-! ## Where names lead in a grown tree -/

theorem Grows.refl (t : FileTree) : t.Grows t :=
  fun _ e h => ⟨e, h, .refl e⟩

theorem Grows.trans (h : t.Grows t') (h' : t'.Grows t'') : t.Grows t'' := by
  intro k e he
  obtain ⟨e', he', hkind⟩ := h k e he
  obtain ⟨e'', he'', hkind'⟩ := h' k e' he'
  exact ⟨e'', he'', hkind.trans hkind'⟩

namespace Grows

variable (h : t.Grows t')
include h

theorem directory (hk : t.get? k = some .directory) : t'.get? k = some .directory := by
  obtain ⟨e', he', hkind⟩ := h k _ hk
  cases hkind
  exact he'

theorem link {target : String} (hk : t.get? k = some (.link target)) :
    t'.get? k = some (.link target) := by
  obtain ⟨e', he', hkind⟩ := h k _ hk
  cases hkind
  exact he'

theorem file {mode : Nat} (hk : t.get? k = some (.file bytes mode)) :
    ∃ bytes' mode', t'.get? k = some (.file bytes' mode') := by
  obtain ⟨e', he', hkind⟩ := h k _ hk
  cases hkind with
  | refl => exact ⟨_, _, he'⟩
  | file => exact ⟨_, _, he'⟩

/-- Names that lead to an entry, or to a free name that a file takes. -/
theorem follow_eq {s : Spot}
    (hs : ∀ k, s = .free k → ∃ bytes mode, t'.get? k = some (.file bytes mode)) :
    t.follow links here names = .ok s →
      t'.follow links here names = .ok (.taken s.location) := by
  fun_induction t.follow links here names with
  | case1 links here =>
    intro hf
    cases hf
    exact follow_nil
  | case2 links here name rest hfiller ih =>
    rw [follow_filler hfiller]
    exact ih
  | case3 links here rest _ ih =>
    rw [follow_parent]
    exact ih
  | case5 links here name rest hfiller hp hlong next hn hempty =>
    intro hf
    cases hf
    obtain ⟨bytes, mode, hfile⟩ := hs _ rfl
    rw [follow_name hfiller hp hlong, hfile]
    exact if_pos hempty
  | case7 links here name rest hfiller hp hlong next hn ih =>
    rw [follow_name hfiller hp hlong, h.directory hn]
    exact ih
  | case8 links here name rest hfiller hp hlong next bytes mode hn hempty =>
    intro hf
    cases hf
    obtain ⟨bytes', mode', hfile⟩ := h.file hn
    rw [follow_name hfiller hp hlong, hfile]
    exact if_pos hempty
  | case11 here name rest hfiller hp hlong next target hn links start ih =>
    rw [follow_name hfiller hp hlong, h.link hn]
    exact ih
  | case4 | case6 | case9 | case10 =>
    intro hf
    cases hf

theorem follow_taken (hf : t.follow links here names = .ok (.taken k)) :
    t'.follow links here names = .ok (.taken k) :=
  h.follow_eq (fun _ hs => Spot.noConfusion hs) hf

theorem locate (hl : t.locate cwd path = .ok k) : t'.locate cwd path = .ok k := by
  rw [locate_eq_ok_iff] at hl ⊢
  exact ⟨hl.1, h.follow_taken hl.2⟩

end Grows

/-- Nothing has a free name. -/
theorem get?_of_follow_free (hf : t.follow links here names = .ok (.free k)) :
    k ≠ [] ∧ t.get? k = none := by
  fun_induction t.follow links here names with
  | case2 links here name rest hfiller ih => exact ih hf
  | case3 links here rest _ ih => exact ih hf
  | case5 links here name rest hfiller hp hlong next hn hempty =>
    have hk : next = k := Spot.free.inj (Except.ok.inj hf)
    rw [← hk]
    exact ⟨List.concat_ne_nil name here, hn⟩
  | case7 links here name rest hfiller hp hlong next hn ih => exact ih hf
  | case11 here name rest hfiller hp hlong next target hn links start ih => exact ih hf
  | case1 | case4 | case6 | case8 | case9 | case10 => cases hf

/-! ## Well-formed trees -/

theorem mem_set {entry : Location × Entry} (h : entry ∈ (t.set l e).entries) :
    entry = (l, e) ∨ entry ∈ t.entries := by
  have hput {entries : List (Location × Entry)} (h : entry ∈ Keyed.put l e entries) :
      entry = (l, e) ∨ entry ∈ entries := by
    induction entries with
    | nil => exact .inl (List.mem_singleton.mp h)
    | cons first rest ih =>
      obtain ⟨key, value⟩ := first
      rw [Keyed.put, Keyed.alter] at h
      split at h
      · next hkey =>
        rcases List.mem_cons.mp h with rfl | h
        · exact .inl (by rw [beq_iff_eq.mp hkey])
        · exact .inr (List.mem_cons_of_mem _ h)
      · rcases List.mem_cons.mp h with rfl | h
        · exact .inr List.mem_cons_self
        · exact (ih h).imp_right (List.mem_cons_of_mem _)
  exact hput h

/-- An entry with a name in a directory, unless it takes the place of a directory. -/
theorem WellFormed.set (hw : t.WellFormed) (hl : t.get? l = some .directory) (hn : IsName name)
    (hfree : t.get? (l ++ [name]) ≠ some .directory) (e : Entry) :
      (t.set (l ++ [name]) e).WellFormed := by
  have hkept {k : Location} (hk : t.get? k = some .directory) :
      (t.set (l ++ [name]) e).get? k = some .directory := by
    rw [get?_set (List.concat_ne_nil name l), if_neg, hk]
    rintro rfl
    exact hfree hk
  constructor
  · intro entry hm
    rcases mem_set hm with rfl | hm
    · intro name' hm'
      rcases List.mem_append.mp hm' with hm' | hm'
      · exact hw.isName_of_get? hl name' hm'
      · rw [List.mem_singleton.mp hm']
        exact hn
    · exact hw.isName entry hm
  · intro entry hm
    rcases mem_set hm with rfl | hm
    · rw [List.dropLast_concat]
      exact hkept hl
    · exact hkept (hw.parent entry hm)

theorem grows_set (hl : l ≠ []) (hkind : ∀ old, t.get? l = some old → old.SameKind e) :
    t.Grows (t.set l e) := by
  intro k old hk
  rw [get?_set hl]
  by_cases hkl : k = l
  · rw [if_pos hkl]
    rw [hkl] at hk
    exact ⟨e, rfl, hkind old hk⟩
  · rw [if_neg hkl]
    exact ⟨old, hk, .refl old⟩

/-! ## Making directories -/

/-- The last name of a path, and what is before it. -/
theorem splitSlash_of_splitLast? {above : List (List Char)} {slash : Bool}
    (h : splitLast? path = some (above, name, slash)) :
    name ≠ [] ∧ ∃ n, Path.splitSlash path.toList = above ++ name :: List.replicate n [] := by
  unfold splitLast? at h
  simp only at h
  generalize Path.splitSlash path.toList = names at h ⊢
  have hsplit := List.takeWhile_append_dropWhile (p := List.isEmpty) (l := names.reverse)
  have hempty : names.reverse.takeWhile List.isEmpty =
      List.replicate (names.reverse.takeWhile List.isEmpty).length [] :=
    List.eq_replicate_of_mem fun name hm => List.isEmpty_iff.mp (List.mem_takeWhile_imp hm)
  cases hd : names.reverse.dropWhile List.isEmpty with
  | nil =>
    rw [hd] at h
    cases h
  | cons last before =>
    have hlast : ¬ last.isEmpty = true := by
      have hhead := List.head?_dropWhile_not List.isEmpty names.reverse
      simpa [hd] using hhead
    rw [hd] at h hsplit
    simp only [Option.some.injEq, Prod.mk.injEq] at h
    obtain ⟨rfl, rfl, -⟩ := h
    rw [hempty] at hsplit
    have hnames := congrArg List.reverse hsplit
    exact ⟨by simpa using hlast, _, by simpa using hnames.symm⟩

theorem directoryAbove_eq_ok {above : List (List Char)}
    (h : t.directoryAbove cwd path above = .ok l) :
    t.followFrom cwd path (above ++ [['.']]) = .ok (.taken l) := by
  obtain ⟨s, hs, hl⟩ := bind_eq_ok_iff.mp h
  cases s with
  | taken k =>
    cases hl
    exact hs
  | free k => cases hl

/-- Names with a `.` after them lead to a directory, if anywhere. -/
theorem leads_of_follow_current (hw : t.WellFormed) (hd : t.get? here = some .directory)
    (h : t.follow links here (names ++ [['.']]) = .ok (.taken l)) :
    t.Leads links here names l ∧ t.get? l = some .directory := by
  obtain ⟨k, hk, hdir⟩ := leads_of_follow_append hw hd h
  obtain ⟨m, hm⟩ := hk
  have hkl := (hm [['.']]).symm.trans h
  rw [follow_filler (by rfl), follow_nil] at hkl
  cases hkl
  exact ⟨⟨m, hm⟩, hdir⟩

theorem follow_replicate_nil (n : Nat) :
    t.follow links here (List.replicate n []) = .ok (.taken here) := by
  induction n with
  | zero => exact follow_nil
  | succ n ih => rw [List.replicate_succ, follow_filler (by rfl), ih]

theorem noNul_of_checkPath (h : checkPath path = .ok ()) : '\x00' ∉ path.toList := by
  intro hm
  rw [checkPath, if_pos (List.contains_iff_mem.mpr hm)] at h
  cases h

/-- A directory that can be made has a free name in a directory, and the path leads to it once it is
made. -/
theorem newDirectory_eq_ok (hw : t.WellFormed) (hd : t.get? cwd = some .directory)
    (h : t.newDirectory cwd path = .ok k) :
    t.get? k = none ∧ (t.set k .directory).WellFormed ∧ (t.set k .directory).locate cwd path =
      .ok k := by
  obtain ⟨_, hc, h⟩ := bind_eq_ok_iff.mp h
  cases hs : splitLast? path with
  | none =>
    rw [hs] at h
    cases h
  | some parts =>
    obtain ⟨above, name, slash⟩ := parts
    rw [hs] at h
    obtain ⟨l, hl, h⟩ := bind_eq_ok_iff.mp h
    split at h
    · cases h
    next hplain =>
    split at h
    · cases h
    next hshort =>
    split at h
    · cases h
    next hfree =>
    cases h
    simp only [Bool.or_eq_true, decide_eq_true_eq, not_or] at hplain
    obtain ⟨hne, n, hsplit⟩ := splitSlash_of_splitLast? hs
    have hm : name ∈ Path.splitSlash path.toList := by
      rw [hsplit]
      exact List.mem_append_right _ List.mem_cons_self
    have hname : IsName name := {
      notFiller := by simp [Path.isFiller, hne, hplain.1]
      notParent := hplain.2
      noSlash := Path.noSlash_of_mem_splitSlash name hm
      noNul := fun hnul => noNul_of_checkPath hc (Path.mem_of_mem_splitSlash name hm _ hnul)
      short := Nat.not_lt.mp hshort }
    have hnone : t.get? (l ++ [name]) = none := by simpa using hfree
    have habove := directoryAbove_eq_ok hl
    have hdir := (leads_of_follow_current hw (get?_start hd path) habove).2
    have hw' := hw.set hdir hname (by simp [hnone]) .directory
    have hgrows : t.Grows (t.set (l ++ [name]) .directory) :=
      grows_set (List.concat_ne_nil name l) fun old hold => by simp [hnone] at hold
    refine ⟨hnone, hw', locate_eq_ok_iff.mpr ⟨hc, ?_⟩⟩
    obtain ⟨m, hm⟩ := (leads_of_follow_current hw' (get?_start (hgrows.directory hd) path)
      (hgrows.follow_taken habove)).1
    rw [hsplit, followFrom, hm, follow_directory hname, follow_replicate_nil]
    rw [get?_set (List.concat_ne_nil name l), if_pos rfl]

/-- Directories are made at places to which paths lead then, where nothing was. -/
structure Makes (cwd : Location) (paths : List String) (t t' : FileTree) : Prop where
  wellFormed : t'.WellFormed
  entry : ∀ k, t'.get? k = t.get? k ∨
    t.get? k = none ∧ t'.get? k = some .directory ∧ ∃ path ∈ paths, t'.locate cwd path = .ok k

namespace Makes

variable {paths paths' : List String}

theorem refl (hw : t.WellFormed) : Makes cwd paths t t :=
  ⟨hw, fun _ => .inl rfl⟩

theorem grows (h : Makes cwd paths t t') : t.Grows t' := by
  intro k e he
  rcases h.entry k with hk | ⟨hk, -⟩
  · exact ⟨e, hk.trans he, .refl e⟩
  · cases hk.symm.trans he

theorem mono (h : Makes cwd paths t t') (hp : paths ⊆ paths') : Makes cwd paths' t t' := by
  refine ⟨h.wellFormed, fun k => (h.entry k).imp_right ?_⟩
  rintro ⟨hnone, hdir, path, hm, hl⟩
  exact ⟨hnone, hdir, path, hp hm, hl⟩

theorem trans (h : Makes cwd paths t t') (h' : Makes cwd paths t' t'') : Makes cwd paths t t'' := by
  refine ⟨h'.wellFormed, fun k => ?_⟩
  rcases h.entry k with hk | ⟨hnone, hdir, path, hm, hl⟩
  · rw [← hk]
    exact h'.entry k
  · exact .inr ⟨hnone, h'.grows.directory hdir, path, hm, h'.grows.locate hl⟩

end Makes

theorem ensureDirectory_makes (hw : t.WellFormed) (hd : t.get? cwd = some .directory)
    (h : t.ensureDirectory cwd path = .ok t') : Makes cwd [path] t t' := by
  unfold ensureDirectory at h
  cases hm : t.makeDirectory cwd path with
  | ok made =>
    rw [hm] at h
    cases h
    obtain ⟨l, hl, hset⟩ := bind_eq_ok_iff.mp hm
    cases hset
    obtain ⟨hnone, hw', hlocate⟩ := newDirectory_eq_ok hw hd hl
    have hne : l ≠ [] := by
      rintro rfl
      simp at hnone
    refine ⟨hw', fun k => ?_⟩
    rw [get?_set hne]
    by_cases hk : k = l
    · subst hk
      exact .inr ⟨hnone, if_pos rfl, path, List.mem_singleton_self path, hlocate⟩
    · exact .inl (if_neg hk)
  | error e =>
    rw [hm] at h
    simp only at h
    split at h
    · cases h
      exact .refl hw
    · cases h

/-- The run lemma: however far it comes, making directories adds only these directories. -/
theorem ensureDirectories_makes (hw : t.WellFormed) (hd : t.get? cwd = some .directory)
    (paths : List String) :
    Makes cwd paths t (t.ensureDirectories cwd paths).1 := by
  induction paths with
  | nil => exact .refl hw
  | cons path above ih =>
    have hpath : [path] ⊆ path :: above := by simp
    rw [ensureDirectories]
    split
    · next made hmade => exact (ensureDirectory_makes hw hd hmade).mono hpath
    · split
      · exact .refl hw
      have hmade := ih.mono (List.subset_cons_self path above)
      split
      · next made hrest =>
        rw [hrest] at hmade
        split
        · next both hboth =>
          exact hmade.trans
            ((ensureDirectory_makes hmade.wellFormed (hmade.grows.directory hd) hboth).mono hpath)
        · exact hmade
      · exact hmade

/-! ## Writing files -/

/-- A file is written where there was a file or nothing. Its permission bits stay, and so does all
the rest. -/
structure Puts (l : Location) (bytes : ByteArray) (t t' : FileTree) : Prop where
  before : t.get? l = none ∨ ∃ old mode, t.get? l = some (.file old mode)
  file : ∃ mode, t'.get? l = some (.file bytes mode) ∧
    ∀ old mode', t.get? l = some (.file old mode') → mode = mode'
  others : ∀ k, k ≠ l → t'.get? k = t.get? k

theorem Puts.grows (h : Puts l bytes t t') : t.Grows t' := by
  intro k e he
  by_cases hk : k = l
  · subst hk
    obtain ⟨mode, hfile, -⟩ := h.file
    rcases h.before with hnone | ⟨old, mode', hold⟩
    · cases hnone.symm.trans he
    · cases hold.symm.trans he
      exact ⟨_, hfile, .file ..⟩
  · exact ⟨e, (h.others k hk).trans he, .refl e⟩

theorem put_puts (hl : l ≠ [])
    (h : t.get? l = none ∨ ∃ old mode, t.get? l = some (.file old mode)) :
    Puts l bytes t (t.put l bytes) := by
  rcases h with hnone | ⟨old, mode, hold⟩
  · refine ⟨.inl hnone, ⟨newFileMode, ?_, fun old mode hold => ?_⟩, fun k hk => ?_⟩
    · rw [put, hnone]
      exact (get?_set hl).trans (if_pos rfl)
    · cases hnone.symm.trans hold
    · rw [put, hnone]
      exact (get?_set hl).trans (if_neg hk)
  · refine ⟨.inr ⟨old, mode, hold⟩, ⟨mode, ?_, fun old' mode' hold' => ?_⟩, fun k hk => ?_⟩
    · rw [put, hold]
      exact (get?_set hl).trans (if_pos rfl)
    · cases hold.symm.trans hold'
      rfl
    · rw [put, hold]
      exact (get?_set hl).trans (if_neg hk)

theorem writeLocation_eq_ok (h : t.writeLocation cwd path = .ok l) :
    checkPath path = .ok () ∧ (t.spot cwd path = .ok (.free l) ∨
      t.spot cwd path = .ok (.taken l) ∧ t.get? l ≠ some .directory) := by
  obtain ⟨_, hc, h⟩ := bind_eq_ok_iff.mp h
  refine ⟨hc, ?_⟩
  split at h
  · obtain ⟨_, _, h⟩ := bind_eq_ok_iff.mp h
    cases h
  · obtain ⟨s, hs, h⟩ := bind_eq_ok_iff.mp h
    cases s with
    | free k =>
      cases h
      exact .inl hs
    | taken k =>
      simp only at h
      split at h
      · cases h
      · next hk =>
        cases h
        exact .inr ⟨hs, hk⟩

/-- Writing to a path changes the file to which the path leads then. -/
theorem write_eq_ok (hw : t.WellFormed) (hd : t.get? cwd = some .directory)
    (h : t.write cwd path bytes = .ok t') :
    ∃ l, t'.locate cwd path = .ok l ∧ Puts l bytes t t' ∧
      ∀ e, t.get? l = some e → t.locate cwd path = .ok l := by
  obtain ⟨l, hl, hput⟩ := bind_eq_ok_iff.mp h
  cases hput
  obtain ⟨hc, hspot⟩ := writeLocation_eq_ok hl
  rw [spot_of_checkPath hc] at hspot
  rcases hspot with hfree | ⟨htaken, hdir⟩
  · obtain ⟨hne, hnone⟩ := get?_of_follow_free hfree
    have hputs : Puts l bytes t (t.put l bytes) := put_puts hne (.inl hnone)
    obtain ⟨mode, hfile, -⟩ := hputs.file
    refine ⟨l, locate_eq_ok_iff.mpr ⟨hc, ?_⟩, hputs, fun e he => by cases hnone.symm.trans he⟩
    refine hputs.grows.follow_eq (fun k hk => ?_) hfree
    cases hk
    exact ⟨bytes, mode, hfile⟩
  · have hfile := (get?_of_follow hw (get?_start hd path) htaken).resolve_left hdir
    have hne : l ≠ [] := by
      rintro rfl
      exact hdir (get?_nil t)
    have hputs : Puts l bytes t (t.put l bytes) := put_puts hne (.inr hfile)
    exact ⟨l, locate_eq_ok_iff.mpr ⟨hc, hputs.grows.follow_taken htaken⟩, hputs,
      fun _ _ => locate_eq_ok_iff.mpr ⟨hc, htaken⟩⟩

end FileTree

end ScriptLint
