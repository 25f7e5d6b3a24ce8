import ScriptLint.Proofs.Location

/-!
How names are followed. Names either lead on to a directory, from where the next names are followed,
or nothing can follow them (`goesOn`). Main statements: `locate_toPath`, where the text of a
location leads, `eq_of_follow`, a way without links stays where its names say, and
`extension?_of_locate`, a path has the extension of its file unless it ends with a link.
-/

namespace ScriptLint.FileTree

variable {t : FileTree} {links links' : Nat} {cwd here here' l k : Location} {name : List Char}
  {names names' rest : List (List Char)} {e : Entry}

@[simp] theorem follow_nil : t.follow links here [] = .ok (.taken here) := by
  rw [follow]

theorem follow_filler (h : Path.isFiller name = true) :
    t.follow links here (name :: rest) = t.follow links here rest := by
  rw [follow, if_pos h]

theorem follow_parent :
    t.follow links here (['.', '.'] :: rest) = t.follow links here.dropLast rest := by
  rw [follow, if_neg (by decide), if_pos rfl]

section Name

variable (hf : ¬ Path.isFiller name = true) (hp : ¬ name = ['.', '.'])
include hf hp

theorem follow_long (hs : maxNameLength < byteLength name) :
    t.follow links here (name :: rest) = .error .nameTooLong := by
  rw [follow, if_neg hf, if_neg hp, if_pos hs]

variable (hs : ¬ maxNameLength < byteLength name)
include hs

/-- What a name that is not too long does depends on the entry that it names. -/
theorem follow_name :
    t.follow links here (name :: rest) =
      match t.get? (here ++ [name]) with
      | none => if rest.isEmpty then .ok (.free (here ++ [name])) else .error .notFound
      | some .directory => t.follow links (here ++ [name]) rest
      | some (.file ..) =>
        if rest.isEmpty then .ok (.taken (here ++ [name])) else .error .notADirectory
      | some (.link target) =>
        match links with
        | 0 => .error .tooManyLinks
        | links + 1 =>
          t.follow links (if Path.isAbsolute target then [] else here)
            (Path.splitSlash target.toList ++ rest) := by
  rw [follow, if_neg hf, if_neg hp]
  exact if_neg hs

end Name

section IsName

variable (hn : IsName name)
include hn

theorem follow_directory (h : t.get? (here ++ [name]) = some .directory) :
    t.follow links here (name :: rest) = t.follow links (here ++ [name]) rest := by
  rw [follow_name (by simp [hn.notFiller]) hn.notParent (Nat.not_lt.mpr hn.short), h]

theorem follow_file {bytes : ByteArray} {mode : Nat}
    (h : t.get? (here ++ [name]) = some (.file bytes mode)) :
    t.follow links here [name] = .ok (.taken (here ++ [name])) := by
  rw [follow_name (by simp [hn.notFiller]) hn.notParent (Nat.not_lt.mpr hn.short), h]
  rfl

theorem follow_free (h : t.get? (here ++ [name]) = none) :
    t.follow links here [name] = .ok (.free (here ++ [name])) := by
  rw [follow_name (by simp [hn.notFiller]) hn.notParent (Nat.not_lt.mpr hn.short), h]
  rfl

/-- A link stands for the names of its target. -/
theorem follow_link {target : String} (h : t.get? (here ++ [name]) = some (.link target)) :
    t.follow (links + 1) here (name :: rest) =
      t.follow links (if Path.isAbsolute target then [] else here)
        (Path.splitSlash target.toList ++ rest) := by
  rw [follow_name (by simp [hn.notFiller]) hn.notParent (Nat.not_lt.mpr hn.short), h]

/-- A link in the last place stands for its target. -/
theorem follow_last_link {target : String} (h : t.get? (here ++ [name]) = some (.link target)) :
    t.follow (links + 1) here [name] =
      t.follow links (if Path.isAbsolute target then [] else here)
        (Path.splitSlash target.toList) := by
  rw [follow_link hn h, List.append_nil]

end IsName

/-- Following the names leads to a place from where all further names are followed. -/
def Leads (t : FileTree) (links : Nat) (here : Location) (names : List (List Char)) (l : Location) :
    Prop :=
  ∃ k, ∀ rest, t.follow links here (names ++ rest) = t.follow k l rest

/-- No further names can be followed, and the names do not lead to a directory. -/
def Stops (t : FileTree) (links : Nat) (here : Location) (names : List (List Char)) : Prop :=
  (∀ rest, rest ≠ [] → ∃ e, t.follow links here (names ++ rest) = .error e) ∧
    ∀ l, t.follow links here names = .ok (.taken l) → t.get? l ≠ some .directory

theorem Leads.follow_eq (h : t.Leads links here names l) :
    t.follow links here names = .ok (.taken l) := by
  obtain ⟨k, h⟩ := h
  have h := h []
  rwa [List.append_nil, follow_nil] at h

theorem leads_congr
    (h : ∀ rest, t.follow links here (names ++ rest) = t.follow links' here' (names' ++ rest)) :
    t.Leads links here names l ↔ t.Leads links' here' names' l := by
  simp only [Leads, h]

theorem stops_congr
    (h : ∀ rest, t.follow links here (names ++ rest) = t.follow links' here' (names' ++ rest)) :
    t.Stops links here names ↔ t.Stops links' here' names' := by
  have hnil := h []
  simp only [List.append_nil] at hnil
  simp only [Stops, h, hnil]

/-- Names that lead to an error stop, whatever comes after them. -/
theorem stops_of_error (e : IoError) (h : ∀ rest, t.follow links here (names ++ rest) = .error e) :
    t.Stops links here names := by
  refine ⟨fun rest _ => ⟨e, h rest⟩, fun l hl => ?_⟩
  have hnil := h []
  rw [List.append_nil, hl] at hnil
  cases hnil

/-- A last name stops if it leads to no directory and takes no names after it. -/
theorem stops_of_end (e : IoError) (hempty : names.isEmpty = true)
    (herr : ∀ rest, ¬ rest.isEmpty = true → t.follow links here (name :: rest) = .error e)
    (hend : ∀ l, t.follow links here [name] = .ok (.taken l) → t.get? l ≠ some .directory) :
    t.Stops links here (name :: names) := by
  rw [List.isEmpty_iff] at hempty
  subst hempty
  exact ⟨fun rest hr => ⟨e, herr rest (by simpa using hr)⟩, hend⟩

/-- A path starts at a directory. -/
theorem get?_start (hd : t.get? here = some .directory) (path : String) :
    t.get? (if Path.isAbsolute path then [] else here) = some .directory := by
  split
  · exact get?_nil t
  · exact hd

/-- Names lead on to a directory, or nothing can follow them. -/
theorem leads_or_stops (hw : t.WellFormed) (links : Nat) (names : List (List Char))
    (hd : t.get? here = some .directory) :
    (∃ l, t.Leads links here names l ∧ t.get? l = some .directory) ∨ t.Stops links here names := by
  fun_induction t.follow links here names with
  | case1 links here => exact .inl ⟨here, ⟨links, fun rest => rfl⟩, hd⟩
  | case2 links here name names hf ih =>
    have hstep (rest) : t.follow links here (name :: names ++ rest) =
        t.follow links here (names ++ rest) :=
      follow_filler hf
    simpa only [leads_congr hstep, stops_congr hstep] using ih hd
  | case3 links here names _ ih =>
    have hstep (rest) : t.follow links here (['.', '.'] :: names ++ rest) =
        t.follow links here.dropLast (names ++ rest) :=
      follow_parent
    simpa only [leads_congr hstep, stops_congr hstep] using ih (hw.get?_dropLast hd)
  | case4 links here name names hf hp hs =>
    exact .inr (stops_of_error .nameTooLong fun rest => follow_long hf hp hs)
  | case5 links here name names hf hp hs next hn hempty =>
    refine .inr (stops_of_end .notFound hempty (fun rest hr => ?_) ?_)
    · rw [follow_name hf hp hs, hn]
      exact if_neg hr
    · rw [follow_name hf hp hs, hn]
      exact nofun
  | case6 links here name names hf hp hs next hn hempty =>
    refine .inr (stops_of_error .notFound fun rest => ?_)
    rw [List.cons_append, follow_name hf hp hs, hn]
    exact if_neg (by simp_all)
  | case7 links here name names hf hp hs next hn ih =>
    have hstep (rest) : t.follow links here (name :: names ++ rest) =
        t.follow links next (names ++ rest) := by
      rw [List.cons_append, follow_name hf hp hs, hn]
    simpa only [leads_congr hstep, stops_congr hstep] using ih hn
  | case8 links here name names hf hp hs next bytes mode hn hempty =>
    refine .inr (stops_of_end .notADirectory hempty (fun rest hr => ?_) ?_)
    · rw [follow_name hf hp hs, hn]
      exact if_neg hr
    · intro l hl
      rw [follow_name hf hp hs, hn] at hl
      cases hl
      rw [hn]
      exact nofun
  | case9 links here name names hf hp hs next bytes mode hn hempty =>
    refine .inr (stops_of_error .notADirectory fun rest => ?_)
    rw [List.cons_append, follow_name hf hp hs, hn]
    exact if_neg (by simp_all)
  | case10 here name names hf hp hs next target hn =>
    refine .inr (stops_of_error .tooManyLinks fun rest => ?_)
    rw [List.cons_append, follow_name hf hp hs, hn]
  | case11 here name names hf hp hs next target hn links start ih =>
    have hstep (rest) : t.follow (links + 1) here (name :: names ++ rest) =
        t.follow links start (Path.splitSlash target.toList ++ names ++ rest) := by
      rw [List.cons_append, follow_name hf hp hs, hn, List.append_assoc]
      rfl
    simpa only [leads_congr hstep, stops_congr hstep] using ih (get?_start hd target)

/-- Names lead to a directory or to a file, never to a link. -/
theorem get?_of_follow (hw : t.WellFormed) (hd : t.get? here = some .directory)
    (h : t.follow links here names = .ok (.taken k)) :
    t.get? k = some .directory ∨ ∃ bytes mode, t.get? k = some (.file bytes mode) := by
  fun_induction t.follow links here names with
  | case1 links here =>
    cases h
    exact .inl hd
  | case2 links here name names hf ih => exact ih hd h
  | case3 links here names _ ih => exact ih (hw.get?_dropLast hd) h
  | case7 links here name names hf hp hs next hn ih => exact ih hn h
  | case8 links here name names hf hp hs next bytes mode hn =>
    have hk : next = k := Spot.taken.inj (Except.ok.inj h)
    exact .inr ⟨bytes, mode, hk ▸ hn⟩
  | case11 here name names hf hp hs next target hn links start ih =>
    exact ih (get?_start hd target) h
  | case4 | case5 | case6 | case9 | case10 => cases h

/-- Names that lead to a directory lead on from there. -/
theorem leads_of_follow (hw : t.WellFormed) (hd : t.get? here = some .directory)
    (h : t.follow links here names = .ok (.taken l)) (hl : t.get? l = some .directory) :
    t.Leads links here names l := by
  rcases leads_or_stops hw links names hd with ⟨k, hk, _⟩ | ⟨_, hend⟩
  · cases hk.follow_eq.symm.trans h
    exact hk
  · exact absurd hl (hend l h)

/-- Whatever comes before the last name of a path that leads anywhere leads to a directory. -/
theorem leads_of_follow_append (hw : t.WellFormed) (hd : t.get? here = some .directory) {s : Spot}
    (h : t.follow links here (names ++ [name]) = .ok s) :
    ∃ l, t.Leads links here names l ∧ t.get? l = some .directory := by
  rcases leads_or_stops hw links names hd with hk | ⟨herr, _⟩
  · exact hk
  · obtain ⟨e, he⟩ := herr [name] (List.cons_ne_nil _ _)
    cases he.symm.trans h

/-- One more name after names that lead to a directory. -/
theorem Leads.append_directory (h : t.Leads links here names l) (hn : IsName name)
    (hg : t.get? (l ++ [name]) = some .directory) : t.Leads links here (names ++ [name])
      (l ++ [name]) := by
  obtain ⟨k, h⟩ := h
  refine ⟨k, fun rest => ?_⟩
  rw [List.append_assoc, h, List.singleton_append, follow_directory hn hg]

theorem Leads.append_file {bytes : ByteArray} {mode : Nat} (h : t.Leads links here names l)
    (hn : IsName name) (hg : t.get? (l ++ [name]) = some (.file bytes mode)) :
    t.follow links here (names ++ [name]) = .ok (.taken (l ++ [name])) := by
  obtain ⟨k, h⟩ := h
  rw [h, follow_file hn hg]

/-- The names of a directory lead to it from the root. -/
theorem WellFormed.leads (hw : t.WellFormed) (hl : t.get? l = some .directory) :
    t.Leads links [] l l := by
  induction l using List.reverseRecOn with
  | nil => exact ⟨links, fun rest => rfl⟩
  | append_singleton l name ih =>
    have hn : IsName name := hw.isName_of_get? hl name (by simp)
    have hd : t.get? l = some .directory := hw.get?_of_append (List.cons_ne_nil name []) hl
    exact (ih hd).append_directory hn hl

/-- The names of an entry that is no link lead to it from the root. -/
theorem WellFormed.follow_file (hw : t.WellFormed) {bytes : ByteArray} {mode : Nat}
    (hl : t.get? l = some (.file bytes mode)) : t.follow links [] l = .ok (.taken l) := by
  induction l using List.reverseRecOn with
  | nil => cases hl
  | append_singleton l name _ =>
    have hn : IsName name := hw.isName_of_get? hl name (by simp)
    exact (hw.leads (hw.get?_of_append (List.cons_ne_nil name []) hl)).append_file hn hl

theorem spot_of_checkPath {path : String} (h : checkPath path = .ok ()) :
    t.spot cwd path = t.followFrom cwd path (Path.splitSlash path.toList) := by
  rw [spot, h]
  rfl

theorem locate_eq_ok_iff {path : String} :
    t.locate cwd path = .ok k ↔
      checkPath path = .ok () ∧ t.followFrom cwd path (Path.splitSlash path.toList) =
        .ok (.taken k) := by
  cases hc : checkPath path with
  | error e =>
    rw [locate, spot, hc]
    exact ⟨nofun, nofun⟩
  | ok _ =>
    rw [locate, spot_of_checkPath hc]
    cases t.followFrom cwd path (Path.splitSlash path.toList) with
    | error e => simp
    | ok spot =>
      cases spot with
      | taken l => simp
      | free l => simp

theorem get?_of_locate (hw : t.WellFormed) (hd : t.get? cwd = some .directory) {path : String}
    (h : t.locate cwd path = .ok k) :
    t.get? k = some .directory ∨ ∃ bytes mode, t.get? k = some (.file bytes mode) :=
  get?_of_follow hw (get?_start hd path) (locate_eq_ok_iff.mp h).2

theorem checkPath_toPath (hl : ∀ name ∈ l, IsName name) :
    checkPath l.toPath = if isTooLong l.toPath then .error .nameTooLong else .ok () := by
  have hnul : l.toPath.toList.contains '\x00' = false := by simpa using Location.noNul_toPath hl
  have hne : l.toPath.toList.isEmpty = false := by simp [Location.toPath]
  simp only [checkPath, hnul, hne, Bool.false_eq_true, if_false]

/-- Where the text of a location leads, whatever the current directory is. -/
theorem locate_toPath (hl : ∀ name ∈ l, IsName name) :
    t.locate cwd l.toPath = .ok k ↔
      isTooLong l.toPath = false ∧ t.follow maxLinks [] l = .ok (.taken k) := by
  have hnames : t.followFrom cwd l.toPath (Path.splitSlash l.toPath.toList) =
      t.follow maxLinks [] l := by
    rw [followFrom, if_pos (Location.isAbsolute_toPath l),
      Location.splitSlash_toPath fun name hn => (hl name hn).noSlash, follow_filler (by rfl)]
    by_cases he : l = []
    · subst he
      exact follow_filler (by rfl)
    · rw [if_neg he]
  rw [locate_eq_ok_iff, checkPath_toPath hl, hnames]
  cases isTooLong l.toPath with
  | true => simp
  | false => simp

/-- What the path of a file gives, whatever the current directory is. -/
theorem WellFormed.file_toPath (hw : t.WellFormed) {bytes : ByteArray} {mode : Nat}
    (hl : t.get? l = some (.file bytes mode)) (hs : isTooLong l.toPath = false) (cwd : Location) :
    t.read cwd l.toPath = .ok bytes ∧ t.mode? cwd l.toPath = some mode := by
  have hlocate : t.locate cwd l.toPath = .ok l :=
    (locate_toPath (hw.isName_of_get? hl)).mpr ⟨hs, hw.follow_file hl⟩
  constructor
  · simp only [read, hlocate, bind, Except.bind, hl]
    rfl
  · rw [mode?, entryAt?, hlocate]
    simp only [hl]

/-- A way without links stays where its names say. -/
theorem eq_of_follow (hn : ∀ name ∈ names, IsName name)
    (hlinks : ∀ p target, p <+: names → t.get? (here ++ p) ≠ some (.link target))
    (h : t.follow links here names = .ok (.taken k)) : k = here ++ names := by
  induction names generalizing here with
  | nil =>
    rw [follow_nil] at h
    cases h
    exact (List.append_nil _).symm
  | cons name names ih =>
    have hname : IsName name := hn name List.mem_cons_self
    have hrest : ∀ name ∈ names, IsName name := fun n hm => hn n (List.mem_cons_of_mem name hm)
    have hfirst (target) : t.get? (here ++ [name]) ≠ some (.link target) :=
      hlinks [name] target (by simp)
    rw [follow_name (by simp [hname.notFiller]) hname.notParent (Nat.not_lt.mpr hname.short)] at h
    cases hg : t.get? (here ++ [name]) with
    | none =>
      rw [hg] at h
      cases names with
      | nil => cases h
      | cons second names => cases h
    | some entry =>
      rw [hg] at h
      cases entry with
      | directory =>
        have hk := ih hrest (fun p target hp => ?_) h
        · rw [hk, List.append_assoc]
          rfl
        · have hp' := hlinks (name :: p) target (List.cons_prefix_cons.mpr ⟨rfl, hp⟩)
          rwa [List.append_assoc]
      | file bytes mode =>
        cases names with
        | nil =>
          cases h
          rfl
        | cons second names => cases h
      | link target => exact absurd hg (hfirst target)

/-- The last name of a path names a link. -/
def NamesLink (t : FileTree) (cwd : Location) (path : String) : Prop :=
  ∃ above name here target, Path.splitSlash path.toList = above ++ [name] ∧
    t.followFrom cwd path above = .ok (.taken here) ∧ t.get? (here ++ [name]) = some (.link target)

/-- The last name of a path that leads to a file names the file or a link to it. -/
theorem last_of_follow (hw : t.WellFormed) (hd : t.get? here = some .directory) {bytes : ByteArray}
    {mode : Nat} (h : t.follow links here [name] = .ok (.taken k))
    (hk : t.get? k = some (.file bytes mode)) :
    (∃ target, t.get? (here ++ [name]) = some (.link target)) ∨
      ¬ Path.isFiller name = true ∧ ¬ name = ['.', '.'] ∧ k = here ++ [name] := by
  by_cases hf : Path.isFiller name = true
  · rw [follow_filler hf, follow_nil] at h
    cases h
    cases hd.symm.trans hk
  by_cases hp : name = ['.', '.']
  · subst hp
    rw [follow_parent, follow_nil] at h
    cases h
    cases (hw.get?_dropLast hd).symm.trans hk
  by_cases hs : maxNameLength < byteLength name
  · rw [follow_long hf hp hs] at h
    cases h
  rw [follow_name hf hp hs] at h
  cases hg : t.get? (here ++ [name]) with
  | none =>
    rw [hg] at h
    cases h
  | some entry =>
    rw [hg] at h
    cases entry with
    | file bytes mode =>
      cases h
      exact .inr ⟨hf, hp, rfl⟩
    | directory =>
      rw [follow_nil] at h
      cases h
      cases hg.symm.trans hk
    | link target => exact .inl ⟨target, rfl⟩

/-- A path to a file has the extension of the file, unless its last name names a link. -/
theorem extension?_of_locate (hw : t.WellFormed) (hd : t.get? cwd = some .directory) {path : String}
    {bytes : ByteArray} {mode : Nat} (h : t.locate cwd path = .ok k)
    (hk : t.get? k = some (.file bytes mode)) :
    t.NamesLink cwd path ∨ Path.extension? path = Path.extension? k.toPath := by
  have hfollow := (locate_eq_ok_iff.mp h).2
  obtain ⟨above, name, hnames⟩ : ∃ above name, Path.splitSlash path.toList = above ++ [name] :=
    ⟨_, _, (List.dropLast_concat_getLast (Path.splitSlash_ne_nil _)).symm⟩
  rw [hnames, followFrom] at hfollow
  obtain ⟨here, hleads, hhere⟩ := leads_of_follow_append hw (get?_start hd path) hfollow
  have hlast : ∃ m, t.follow m here [name] = .ok (.taken k) := by
    obtain ⟨m, hm⟩ := hleads
    exact ⟨m, (hm [name]).symm.trans hfollow⟩
  obtain ⟨m, hlast⟩ := hlast
  rcases last_of_follow hw hhere hlast hk with ⟨target, hlink⟩ | ⟨hf, hp, rfl⟩
  · exact .inl ⟨above, name, here, target, hnames, hleads.follow_eq, hlink⟩
  · right
    rw [Location.extension?_toPath (hw.isName_of_get? hk), Path.extension?,
      Path.fileName?_of_splitSlash hnames hf hp, Option.bind_some]

end ScriptLint.FileTree
