import ScriptLint.Proofs.Changes
import ScriptLint.Proofs.Scan

/-!
Two trees of which the second one has one more file. Paths lead to the same places in both, unless
they meet the place of that file. Main statements: `Beside.follow_cases`, where names lead in the
two trees, and `Beside.runOn_writeFile`, a text is written in both trees, or in neither for the same
reason.
-/

namespace ScriptLint

open ScriptLint.Action

namespace FileTree

/-- Following the names meets the location. Unless `ends`, there have to be names left then. -/
inductive Meets (t : FileTree) (c : Location) (ends : Bool) :
    Nat → Location → List (List Char) → Prop
  | here {links : Nat} {here : Location} {name : List Char} {rest : List (List Char)}
      (hf : ¬ Path.isFiller name = true) (hp : ¬ name = ['.', '.']) (hc : here ++ [name] = c)
      (hr : ends = false → rest ≠ []) : Meets t c ends links here (name :: rest)
  | filler {links : Nat} {here : Location} {name : List Char} {rest : List (List Char)}
      (hf : Path.isFiller name = true) (h : Meets t c ends links here rest) :
      Meets t c ends links here (name :: rest)
  | parent {links : Nat} {here : Location} {rest : List (List Char)}
      (h : Meets t c ends links here.dropLast rest) : Meets t c ends links here (['.', '.'] :: rest)
  | directory {links : Nat} {here : Location} {name : List Char} {rest : List (List Char)}
      (hf : ¬ Path.isFiller name = true) (hp : ¬ name = ['.', '.'])
      (hg : t.get? (here ++ [name]) = some .directory)
        (h : Meets t c ends links (here ++ [name]) rest) :
      Meets t c ends links here (name :: rest)
  | link {links : Nat} {here : Location} {name : List Char} {rest : List (List Char)}
    {target : String} (hf : ¬ Path.isFiller name = true) (hp : ¬ name = ['.', '.'])
    (hg : t.get? (here ++ [name]) = some (.link target))
    (h : Meets t c ends links (if Path.isAbsolute target then [] else here)
        (Path.splitSlash target.toList ++ rest)) :
      Meets t c ends (links + 1) here (name :: rest)

/-- The names of a path meet the location. -/
def PathMeets (t : FileTree) (c : Location) (ends : Bool) (cwd : Location) (path : String) : Prop :=
  t.Meets c ends maxLinks (if Path.isAbsolute path then [] else cwd) (Path.splitSlash path.toList)

/-- The second tree has a file where nothing is in the first one, and the rest is the same. -/
structure Beside (c : Location) (t t' : FileTree) : Prop where
  free : t.get? c = none
  file : ∃ bytes mode, t'.get? c = some (.file bytes mode)
  others : ∀ k, k ≠ c → t'.get? k = t.get? k

variable {t t' : FileTree} {c cwd here k l : Location} {ends : Bool} {links : Nat}
  {name : List Char} {above names rest : List (List Char)} {path : String} {e : Entry}

/-! ## Meeting a location -/

namespace Meets

theorem grows (h : t.Meets c ends links here names) (hg : t.Grows t') :
    t'.Meets c ends links here names := by
  induction h with
  | here hf hp hc hr => exact .here hf hp hc hr
  | filler hf _ ih => exact .filler hf ih
  | parent _ ih => exact .parent ih
  | directory hf hp hd _ ih => exact .directory hf hp (hg.directory hd) ih
  | link hf hp hl _ ih => exact .link hf hp (hg.link hl) ih

theorem ends_true (h : t.Meets c ends links here names) : t.Meets c true links here names := by
  induction h with
  | here hf hp hc _ => exact .here hf hp hc Bool.noConfusion
  | filler hf _ ih => exact .filler hf ih
  | parent _ ih => exact .parent ih
  | directory hf hp hd _ ih => exact .directory hf hp hd ih
  | link hf hp hl _ ih => exact .link hf hp hl ih

end Meets

/-- Names with a `.` at their end that begin with something else. -/
theorem exists_eq_cons_of_append_current (hn : above ++ [['.']] = name :: names)
    (hname : name ≠ ['.']) : ∃ rest, above = name :: rest ∧ rest ++ [['.']] = names := by
  cases above with
  | nil =>
    cases hn
    exact absurd rfl hname
  | cons first rest =>
    cases hn
    exact ⟨rest, rfl, rfl⟩

theorem ne_current_of_not_isFiller (hf : ¬ Path.isFiller name = true) : name ≠ ['.'] := by
  rintro rfl
  exact hf rfl

/-- What is met before a `.` is met with any other names in its place. -/
theorem Meets.replace_current (hrest : rest ≠ [])
    (h : t.Meets c ends links here (above ++ [['.']])) :
    t.Meets c false links here (above ++ rest) := by
  generalize hn : above ++ [['.']] = names at h
  induction h generalizing above with
  | here hf hp hc _ =>
    obtain ⟨above, rfl, -⟩ := exists_eq_cons_of_append_current hn (ne_current_of_not_isFiller hf)
    exact .here hf hp hc fun _ => by simp [hrest]
  | filler hf h ih =>
    cases above with
    | nil =>
      cases hn
      cases h
    | cons first above =>
      cases hn
      exact .filler hf (ih rfl)
  | parent _ ih =>
    obtain ⟨above, rfl, rfl⟩ := exists_eq_cons_of_append_current hn (by decide)
    exact .parent (ih rfl)
  | directory hf hp hd _ ih =>
    obtain ⟨above, rfl, rfl⟩ :=
      exists_eq_cons_of_append_current hn (ne_current_of_not_isFiller hf)
    exact .directory hf hp hd (ih rfl)
  | link hf hp hl _ ih =>
    obtain ⟨above, rfl, rfl⟩ :=
      exists_eq_cons_of_append_current hn (ne_current_of_not_isFiller hf)
    have hmeets := ih (List.append_assoc ..)
    rw [List.append_assoc] at hmeets
    exact .link hf hp hl hmeets

/-- Names that lead to a directory, and then meet the location from there. -/
theorem meets_of_follow_current (hm : ∀ links, t.Meets c ends links l rest)
    (h : t.follow links here (above ++ [['.']]) = .ok (.taken l)) : t.Meets c ends links here
      (above ++ rest) := by
  suffices hall : ∀ names, t.follow links here names = .ok (.taken l) →
      ∀ above, above ++ [['.']] = names →
      t.Meets c ends links here (above ++ rest) from hall _ h above rfl
  clear h
  intro names
  fun_induction t.follow links here names with
  | case1 =>
    intro _ above hn
    cases above <;> cases hn
  | case2 links here name names hf ih =>
    intro h above hn
    cases above with
    | nil =>
      cases hn
      rw [follow_nil] at h
      cases h
      exact hm links
    | cons first above =>
      cases hn
      exact .filler hf (ih h above rfl)
  | case3 links here names _ ih =>
    intro h above hn
    obtain ⟨above, rfl, rfl⟩ := exists_eq_cons_of_append_current hn (by decide)
    exact .parent (ih h above rfl)
  | case7 links here name names hf hp hs next hg ih =>
    intro h above hn
    obtain ⟨above, rfl, rfl⟩ :=
      exists_eq_cons_of_append_current hn (ne_current_of_not_isFiller hf)
    exact .directory hf hp hg (ih h above rfl)
  | case8 links here name names hf hp hs next bytes mode hg hempty =>
    intro _ above hn
    obtain ⟨above, rfl, rfl⟩ :=
      exists_eq_cons_of_append_current hn (ne_current_of_not_isFiller hf)
    simp at hempty
  | case11 here name names hf hp hs next target hg links start ih =>
    intro h above hn
    obtain ⟨above, rfl, rfl⟩ :=
      exists_eq_cons_of_append_current hn (ne_current_of_not_isFiller hf)
    have hmeets := ih h _ (List.append_assoc ..)
    rw [List.append_assoc] at hmeets
    exact .link hf hp hg hmeets
  -- The names end in a failure or at a free name.
  | case4 | case5 | case6 | case9 | case10 =>
    intro h
    cases h

/-! ## Names and paths in both trees -/

namespace Beside

variable (h : Beside c t t')
include h

theorem get?_eq (hk : t.get? k = some e) : t'.get? k = some e := by
  rw [h.others k, hk]
  rintro rfl
  cases h.free.symm.trans hk

theorem grows : t.Grows t' :=
  fun _ e hk => ⟨e, h.get?_eq hk, .refl e⟩

theorem directory_iff : t'.get? k = some .directory ↔ t.get? k = some .directory := by
  refine ⟨fun hk => ?_, h.get?_eq⟩
  rw [← h.others k, hk]
  rintro rfl
  obtain ⟨bytes, mode, hfile⟩ := h.file
  cases hfile.symm.trans hk

/-- Names lead to the same in both trees. Else they lead to the file, where the first tree has a
free name, or they meet it with names left. -/
theorem follow_cases (links : Nat) (here : Location) (names : List (List Char)) :
    t'.follow links here names = t.follow links here names ∨
    t.follow links here names = .ok (.free c) ∧ t'.follow links here names = .ok (.taken c) ∨
    t.Meets c false links here names ∧ t.follow links here names = .error .notFound ∧
      t'.follow links here names = .error .notADirectory := by
  fun_induction t.follow links here names with
  | case1 => exact .inl follow_nil
  | case2 links here name rest hf ih =>
    rw [follow_filler hf]
    exact ih.imp_right (.imp_right (And.imp_left (.filler hf)))
  | case3 links here rest _ ih =>
    rw [follow_parent]
    exact ih.imp_right (.imp_right (And.imp_left .parent))
  | case4 links here name rest hf hp hs => exact .inl (follow_long hf hp hs)
  | case5 links here name rest hf hp hs next hn hempty =>
    rw [follow_name hf hp hs]
    by_cases hc : here ++ [name] = c
    · obtain ⟨bytes, mode, hfile⟩ := h.file
      refine .inr (.inl ⟨congrArg _ (congrArg _ hc), ?_⟩)
      rw [hc, hfile]
      exact if_pos hempty
    · rw [h.others _ hc, hn]
      exact .inl (if_pos hempty)
  | case6 links here name rest hf hp hs next hn hempty =>
    rw [follow_name hf hp hs]
    by_cases hc : here ++ [name] = c
    · obtain ⟨bytes, mode, hfile⟩ := h.file
      refine .inr (.inr ⟨.here hf hp hc fun _ => by simpa using hempty, rfl, ?_⟩)
      rw [hc, hfile]
      exact if_neg hempty
    · rw [h.others _ hc, hn]
      exact .inl (if_neg hempty)
  | case7 links here name rest hf hp hs next hn ih =>
    rw [follow_name hf hp hs, h.get?_eq hn]
    exact ih.imp_right (.imp_right (And.imp_left (.directory hf hp hn)))
  | case8 links here name rest hf hp hs next bytes mode hn hempty =>
    rw [follow_name hf hp hs, h.get?_eq hn]
    exact .inl (if_pos hempty)
  | case9 links here name rest hf hp hs next bytes mode hn hempty =>
    rw [follow_name hf hp hs, h.get?_eq hn]
    exact .inl (if_neg hempty)
  | case10 here name rest hf hp hs next target hn =>
    rw [follow_name hf hp hs, h.get?_eq hn]
    exact .inl rfl
  | case11 here name rest hf hp hs next target hn links start ih =>
    rw [follow_name hf hp hs, h.get?_eq hn]
    exact ih.imp_right (.imp_right (And.imp_left (.link hf hp hn)))

/-- Names that lead to anything but the file in one of the trees lead there in the other one. -/
theorem follow_taken_iff (hk : k ≠ c) :
    t'.follow links here names = .ok (.taken k) ↔ t.follow links here names = .ok (.taken k) := by
  refine ⟨fun hf => ?_, h.grows.follow_taken⟩
  rcases h.follow_cases links here names with heq | ⟨_, hfile⟩ | ⟨_, _, herr⟩
  · rw [← heq, hf]
  · cases hf.symm.trans hfile
    exact absurd rfl hk
  · cases hf.symm.trans herr

theorem locate_iff (hk : k ≠ c) : t'.locate cwd path = .ok k ↔ t.locate cwd path = .ok k := by
  rw [locate_eq_ok_iff, locate_eq_ok_iff, followFrom, followFrom, h.follow_taken_iff hk]

theorem isDirectory_eq : t'.isDirectory cwd path = t.isDirectory cwd path := by
  rw [Bool.eq_iff_iff, isDirectory_iff, isDirectory_iff]
  refine exists_congr fun l => ?_
  rw [h.directory_iff]
  refine and_congr_left fun hl => h.locate_iff ?_
  rintro rfl
  cases h.free.symm.trans hl

theorem set (hk : k ≠ []) (hkc : k ≠ c) : Beside c (t.set k e) (t'.set k e) where
  free := by rw [get?_set hk, if_neg (Ne.symm hkc), h.free]
  file := by
    obtain ⟨bytes, mode, hfile⟩ := h.file
    exact ⟨bytes, mode, by rw [get?_set hk, if_neg (Ne.symm hkc), hfile]⟩
  others l hl := by rw [get?_set hk, get?_set hk, h.others l hl]

/-! ## Writing in both trees -/

variable (hw : t.WellFormed) (hd : t.get? cwd = some .directory)
include hw hd

theorem directoryAbove_cases (path : String) (above : List (List Char)) :
    t'.directoryAbove cwd path above = t.directoryAbove cwd path above ∨
      t.Meets c false maxLinks (if Path.isAbsolute path then [] else cwd) (above ++ [['.']]) := by
  rcases h.follow_cases maxLinks (if Path.isAbsolute path then [] else cwd) (above ++ [['.']]) with
    heq | ⟨hfree, _⟩ | ⟨hmeets, _⟩
  · exact .inl (by rw [directoryAbove, directoryAbove, followFrom, followFrom, heq])
  · -- Names with a `.` at their end lead to no free name.
    obtain ⟨k, ⟨m, hk⟩, _⟩ := leads_of_follow_append hw (get?_start hd path) hfree
    have hend := (hk _).symm.trans hfree
    rw [follow_filler (by rfl), follow_nil] at hend
    cases hend
  · exact .inr hmeets

/-- A directory can be made at the same place in both trees, unless its path meets the file. -/
theorem newDirectory_cases (path : String) :
    t'.newDirectory cwd path = t.newDirectory cwd path ∧ t.newDirectory cwd path ≠ .ok c ∨
      t.PathMeets c true cwd path := by
  unfold newDirectory
  cases checkPath path with
  | error e => exact .inl ⟨rfl, fun hok => by cases hok⟩
  | ok _ =>
    cases hs : splitLast? path with
    | none => exact .inl ⟨rfl, fun hok => by cases hok⟩
    | some parts =>
      obtain ⟨above, name, slash⟩ := parts
      obtain ⟨hne, n, hsplit⟩ := splitSlash_of_splitLast? hs
      rcases h.directoryAbove_cases hw hd path above with heq | hmeets
      · simp only [bind, Except.bind, heq]
        cases habove : t.directoryAbove cwd path above with
        | error e => exact .inl ⟨rfl, fun hok => by cases hok⟩
        | ok l =>
          simp only
          by_cases hplain : (decide (name = ['.']) || decide (name = ['.', '.'])) = true
          · rw [if_pos hplain, if_pos hplain]
            exact .inl ⟨rfl, fun hok => by cases hok⟩
          rw [if_neg hplain, if_neg hplain]
          by_cases hc : l ++ [name] = c
          · right
            simp only [Bool.or_eq_true, decide_eq_true_eq, not_or] at hplain
            rw [PathMeets, hsplit]
            refine meets_of_follow_current (fun _ => ?_) (directoryAbove_eq_ok habove)
            exact .here (by simp [Path.isFiller, hne, hplain.1]) hplain.2 hc Bool.noConfusion
          · refine .inl ⟨by rw [h.others _ hc], fun hok => ?_⟩
            split at hok
            · cases hok
            split at hok
            · cases hok
            exact hc (Except.ok.inj hok)
      · right
        rw [PathMeets, hsplit]
        exact (hmeets.replace_current (List.cons_ne_nil _ _)).ends_true

/-- A directory whose path does not meet the file is there in both trees afterwards, or in neither
for the same reason. -/
theorem ensureDirectory_cases (hm : ¬ t.PathMeets c true cwd path) :
    (∃ made made', t.ensureDirectory cwd path = .ok made ∧ t'.ensureDirectory cwd path = .ok made' ∧
      Beside c made made') ∨
    ∃ e, t.ensureDirectory cwd path = .error e ∧ t'.ensureDirectory cwd path = .error e := by
  obtain ⟨hnew, hnc⟩ := (h.newDirectory_cases hw hd path).resolve_right hm
  unfold ensureDirectory makeDirectory
  rw [hnew, h.isDirectory_eq]
  cases hl : t.newDirectory cwd path with
  | error e =>
    simp only [bind, Except.bind]
    split
    · exact .inl ⟨t, t', rfl, rfl, h⟩
    · exact .inr ⟨e, rfl, rfl⟩
  | ok k =>
    have hk : k ≠ [] := by
      rintro rfl
      cases (newDirectory_eq_ok hw hd hl).1
    have hkc : k ≠ c := fun hkc => hnc (hkc ▸ hl)
    exact .inl ⟨_, _, rfl, rfl, h.set hk hkc⟩

end Beside

/-- A path passes by a location: no path above it meets the location, and the path itself ends there
if it meets it. -/
structure PassesBy (t : FileTree) (c cwd : Location) (path : String) : Prop where
  above : ∀ dir ∈ pathsAbove path, ¬ t.PathMeets c true cwd dir
  path : ¬ t.PathMeets c false cwd path

theorem grows_writeText (hw : t.WellFormed) (hd : t.get? cwd = some .directory)
    (path text : String) :
    t.Grows ((writeText cwd path text).runOn t).2 := by
  rw [runOn_writeText]
  split
  · next made hmade =>
    obtain ⟨_, _, hputs, _⟩ := write_eq_ok hw hd hmade
    exact hputs.grows
  · exact .refl t

theorem ensureDirectories_of_notFound {error : IoError} {paths : List String}
    (herr : t.ensureDirectory cwd path = .error error) (hk : ¬ (error.kind != .notFound) = true) :
    t.ensureDirectories cwd (path :: paths) =
      match t.ensureDirectories cwd paths with
      | (made, .ok ()) =>
        match made.ensureDirectory cwd path with
        | .ok both => (both, .ok ())
        | .error e => (made, .error e)
      | failed => failed := by
  rw [ensureDirectories, herr]
  exact if_neg hk

namespace Beside

variable (h : Beside c t t') (hw : t.WellFormed) (hd : t.get? cwd = some .directory)
include h hw hd

/-- Making directories comes to the same in both trees if their paths do not meet the file in the
tree that is left. -/
theorem ensureDirectories_eq (paths : List String)
    (hm : ∀ dir ∈ paths, ¬ (t.ensureDirectories cwd paths).1.PathMeets c true cwd dir) :
    Beside c (t.ensureDirectories cwd paths).1 (t'.ensureDirectories cwd paths).1 ∧
      (t'.ensureDirectories cwd paths).2 = (t.ensureDirectories cwd paths).2 := by
  induction paths with
  | nil => exact ⟨h, rfl⟩
  | cons path above ih =>
    have hfirst : ¬ t.PathMeets c true cwd path := fun hmeets =>
      hm path List.mem_cons_self
        (hmeets.grows (ensureDirectories_makes hw hd (path :: above)).grows)
    rcases h.ensureDirectory_cases hw hd hfirst with ⟨made, made', hmade, hmade', hbeside⟩ | ⟨e,
      herr, herr'⟩
    · rw [ensureDirectories, ensureDirectories, hmade, hmade']
      exact ⟨hbeside, rfl⟩
    by_cases hk : (e.kind != .notFound) = true
    · rw [ensureDirectories, ensureDirectories, herr, herr']
      simp only [hk, if_true]
      exact ⟨h, trivial⟩
    have hmakes := ensureDirectories_makes hw hd above
    simp only [ensureDirectories_of_notFound herr hk] at hm
    simp only [ensureDirectories_of_notFound herr hk, ensureDirectories_of_notFound herr' hk]
    rcases hrest : t.ensureDirectories cwd above with ⟨made, e' | _⟩
    · simp only [hrest] at hm ih
      obtain ⟨hbeside, hend⟩ := ih fun dir hdir => hm dir (List.mem_cons_of_mem path hdir)
      rcases hrest' : t'.ensureDirectories cwd above with ⟨made', end'⟩
      simp only [hrest'] at hbeside hend
      subst hend
      exact ⟨hbeside, rfl⟩
    · simp only [hrest] at hm ih hmakes
      have hmade (dir) (hdir : dir ∈ path :: above) : ¬ made.PathMeets c true cwd dir := by
        intro hmeets
        refine hm dir hdir (hmeets.grows ?_)
        split
        · next both hboth =>
            exact (ensureDirectory_makes hmakes.wellFormed (hmakes.grows.directory hd) hboth).grows
        · exact .refl made
      obtain ⟨hbeside, hend⟩ := ih fun dir hdir => hmade dir (List.mem_cons_of_mem path hdir)
      rcases hrest' : t'.ensureDirectories cwd above with ⟨made', end'⟩
      simp only [hrest'] at hbeside hend
      subst hend
      simp only
      rcases hbeside.ensureDirectory_cases hmakes.wellFormed (hmakes.grows.directory hd)
          (hmade path List.mem_cons_self) with ⟨both, both', hboth, hboth', hbeside'⟩ | ⟨e',
            hlast, hlast'⟩
      · rw [hboth, hboth']
        exact ⟨hbeside', rfl⟩
      · rw [hlast, hlast']
        exact ⟨hbeside, rfl⟩

/-- A file can be written at the same place in both trees, unless its path goes on after it has met
the file. -/
theorem writeLocation_cases (path : String) :
    t'.writeLocation cwd path = t.writeLocation cwd path ∨ t.PathMeets c false cwd path := by
  unfold writeLocation
  cases hc : checkPath path with
  | error e => exact .inl rfl
  | ok _ =>
    simp only [bind, Except.bind]
    split
    · next above name hs =>
      rcases h.directoryAbove_cases hw hd path above with heq | hmeets
      · exact .inl (by rw [heq])
      · obtain ⟨_, n, hsplit⟩ := splitSlash_of_splitLast? hs
        right
        rw [PathMeets, hsplit]
        exact hmeets.replace_current (List.cons_ne_nil _ _)
    · rw [spot_of_checkPath hc, spot_of_checkPath hc]
      rcases h.follow_cases maxLinks (if Path.isAbsolute path then [] else cwd)
        (Path.splitSlash path.toList) with
        heq | ⟨hfree, htaken⟩ | ⟨hmeets, _⟩
      · left
        simp only [followFrom, heq, h.directory_iff]
      · left
        obtain ⟨bytes, mode, hfile⟩ := h.file
        simp only [followFrom, hfree, htaken, hfile]
        exact if_neg (by simp)
      · exact .inr hmeets

theorem runOn_writeText (text : String)
    (hpath : ¬ (((writeText cwd path text).runOn t).2).PathMeets c false cwd path) :
    ((writeText cwd path text).runOn t').1 = ((writeText cwd path text).runOn t).1 := by
  have hlocation := (h.writeLocation_cases hw hd path).resolve_right fun hmeets =>
    hpath (hmeets.grows (grows_writeText hw hd path text))
  rw [ScriptLint.runOn_writeText, ScriptLint.runOn_writeText, write, write, hlocation]
  cases t.writeLocation cwd path with
  | error e => rfl
  | ok l => rfl

/-- A text is written in both trees, or in neither for the same reason, if its path passes by the
file in the tree that is left. -/
theorem runOn_writeFile (text : String)
    (hpath : (((writeFile cwd path text).runOn t).2).PassesBy c cwd path) :
    ((writeFile cwd path text).runOn t').1 = ((writeFile cwd path text).runOn t).1 := by
  have hmakes := ensureDirectories_makes hw hd (pathsAbove path)
  have hboth := h.ensureDirectories_eq hw hd (pathsAbove path)
  rw [ScriptLint.runOn_writeFile] at hpath
  rw [ScriptLint.runOn_writeFile, ScriptLint.runOn_writeFile]
  rcases hmade : t.ensureDirectories cwd (pathsAbove path) with ⟨made, e | _⟩
  · simp only [hmade] at hpath hboth
    obtain ⟨_, hend⟩ := hboth hpath.above
    rcases hmade' : t'.ensureDirectories cwd (pathsAbove path) with ⟨made', end'⟩
    simp only [hmade'] at hend
    subst hend
    rfl
  · simp only [hmade] at hpath hboth hmakes
    have hdir := hmakes.grows.directory hd
    have hgrows := grows_writeText hmakes.wellFormed hdir path text
    obtain ⟨hbeside, hend⟩ := hboth fun dir hd' hmeets => hpath.above dir hd' (hmeets.grows hgrows)
    rcases hmade' : t'.ensureDirectories cwd (pathsAbove path) with ⟨made', end'⟩
    simp only [hmade'] at hbeside hend
    subst hend
    exact hbeside.runOn_writeText hmakes.wellFormed hdir text hpath.path

end Beside

end FileTree

end ScriptLint
