import ScriptLint.Proofs.Walk

/-!
Which files a walk finds. Names below a root are visible if they lead to a file, and the walk takes
them that far: not into a link back to where it is, and not into a directory whose path is too long.
Main statement: `mem_walk_iff_visible`, a walk shows exactly the texts of the visible names below
the directory where it is.
-/

namespace ScriptLint

section Length

variable {l k : Location}

theorem byteLength_append (a b : List Char) :
    byteLength (a ++ b) = byteLength a + byteLength b := by
  simp [byteLength, String.ofList_append]

theorem byteLength_cons (c : Char) (a : List Char) :
    byteLength (c :: a) = c.utf8Size + byteLength a := by
  simp [byteLength, String.ofList_cons]

/-- The bytes that names add to a path: for each name its own and the one of a slash. -/
def namesLength : List (List Char) → Nat
  | [] => 0
  | name :: names => 1 + byteLength name + namesLength names

theorem namesLength_append (names rest : List (List Char)) :
    namesLength (names ++ rest) = namesLength names + namesLength rest := by
  induction names with
  | nil => simp [namesLength]
  | cons name names ih =>
    rw [List.cons_append, namesLength, namesLength, ih]
    omega

theorem byteLength_joinSlash {names : List (List Char)} (hne : names ≠ []) :
    byteLength ('/' :: Path.joinSlash names) = namesLength names := by
  have hslash : '/'.utf8Size = 1 := by decide
  fun_induction Path.joinSlash names with
  | case1 => exact absurd rfl hne
  | case2 name => rw [byteLength_cons, hslash, namesLength, namesLength, Nat.add_zero]
  | case3 name names hnames ih =>
    rw [byteLength_cons, byteLength_append, ih fun e => hnames e, hslash, ← Nat.add_assoc,
      namesLength]

theorem isTooLong_toPath : isTooLong l.toPath = decide (maxPathLength < namesLength l) := by
  rw [isTooLong, Location.toPath, String.toList_ofList]
  by_cases hl : l = []
  · subst hl
    decide
  · rw [byteLength_joinSlash hl]

/-- The directories above one whose path can be used have paths that can be used. -/
theorem isTooLong_of_prefix (h : l <+: k) (hk : isTooLong k.toPath = false) :
    isTooLong l.toPath = false := by
  obtain ⟨names, rfl⟩ := h
  rw [isTooLong_toPath, decide_eq_false_iff_not] at hk ⊢
  rw [namesLength_append] at hk
  omega

end Length

namespace FileTree

/-- The names of a way lead from the root of the tree to a location. -/
def Reaches (t : FileTree) (way l : Location) : Prop :=
  t.follow maxLinks [] way = .ok (.taken l)

/-- The last name of a way names a link. -/
def EndsInLink (t : FileTree) (way : Location) : Prop :=
  ∃ above name here target, way = above ++ [name] ∧ t.Reaches above here ∧
    t.get? (here ++ [name]) = some (.link target)

/-- The last of the names below a root names a link to a directory that is on the way to it. -/
def LeadsBack (t : FileTree) (root names : Location) : Prop :=
  t.EndsInLink (root ++ names) ∧
    ∃ p l, p <+: names ∧ p ≠ names ∧ t.Reaches (root ++ p) l ∧ t.Reaches (root ++ names) l

/-- The names below a root with which a walk shows a file. -/
structure Visible (t : FileTree) (recursive : Bool) (root names : Location) : Prop where
  below : names ≠ []
  file : ∃ k, t.FileAt (root ++ names) k
  direct : recursive = false → names.length = 1
  noCycle : ∀ p, p <+: names → ¬ t.LeadsBack root p
  /-- The system can list the directory in which the last name is. -/
  directoryFits : isTooLong (root ++ names.dropLast : Location).toPath = false
  /-- The system can follow the last name if that names a link. -/
  linkFits : t.EndsInLink (root ++ names) → isTooLong (root ++ names : Location).toPath = false

variable {t : FileTree} {recursive : Bool} {inside : List Location} {root names here l k : Location}
  {name : List Char} {p path : String} {e : Entry}

/-- Where there are no links, a recursive walk shows the files in all directories that the system
can list. -/
theorem visible_iff (h : ∀ way, ¬ t.EndsInLink way) :
    t.Visible true root names ↔ names ≠ [] ∧ (∃ k, t.FileAt (root ++ names) k) ∧
      isTooLong (root ++ names.dropLast : Location).toPath = false :=
  ⟨fun ⟨hne, hf, _, _, hfits, _⟩ => ⟨hne, hf, hfits⟩,
    fun ⟨hne, hf, hfits⟩ => ⟨hne, hf, nofun, fun _ _ hback => h _ hback.1, hfits,
      fun hlink => absurd hlink (h _)⟩⟩

/-- How a walk below a root has come to a directory. -/
structure Comes (t : FileTree) (recursive : Bool) (root : Location) (inside : List Location)
    (names here : Location) : Prop where
  isName : ∀ name ∈ root ++ names, IsName name
  leads : t.Leads maxLinks [] (root ++ names) here
  directory : ∀ l ∈ inside, t.get? l = some .directory
  inside_iff : ∀ l, l ∈ inside ↔ ∃ p, p <+: names ∧ t.Reaches (root ++ p) l
  noCycle : ∀ p, p <+: names → ¬ t.LeadsBack root p
  fits : isTooLong (root ++ names : Location).toPath = false
  direct : recursive = false → names = []

theorem Reaches.eq (h : t.Reaches names l) (hk : t.Reaches names k) : l = k := by
  cases h.symm.trans hk
  rfl

/-- Whether a way ends in a link shows at the directory to which the names before its last one
lead. -/
theorem endsInLink_append_singleton (h : t.Reaches names here) :
    t.EndsInLink (names ++ [name]) ↔ ∃ target, t.get? (here ++ [name]) = some (.link target) := by
  constructor
  · rintro ⟨above, last, l, target, hnames, hl, hg⟩
    obtain ⟨rfl, rfl⟩ := List.append_singleton_inj.mp hnames
    exact ⟨target, h.eq hl ▸ hg⟩
  · rintro ⟨target, hg⟩
    exact ⟨names, name, here, target, rfl, h, hg⟩

theorem mem_names_of_get? (h : t.get? (l ++ [name]) = some e) : name ∈ t.names l :=
  List.mem_filterMap.mpr ⟨_, mem_entries_of_get? (by simp) h, by simp⟩

/-- The first of names that lead anywhere names an entry. -/
theorem exists_get?_of_follow {links : Nat} {rest : List (List Char)} (hn : IsName name)
    (h : t.follow links here (name :: rest) = .ok (.taken k)) :
      ∃ e, t.get? (here ++ [name]) = some e := by
  rw [follow_name (by simp [hn.notFiller]) hn.notParent (Nat.not_lt.mpr hn.short)] at h
  cases hg : t.get? (here ++ [name]) with
  | some e => exact ⟨e, rfl⟩
  | none =>
    rw [hg] at h
    cases rest with
    | nil => cases h
    | cons second rest => cases h

/-- Names in front of further names that lead anywhere lead to a directory. -/
theorem leads_of_reaches_append (hw : t.WellFormed) {rest : Location} (hne : rest ≠ [])
    (h : t.Reaches (names ++ rest) k) : ∃ l, t.Leads maxLinks [] names l ∧
      t.get? l = some .directory := by
  rcases leads_or_stops hw maxLinks names (get?_nil t) with hl | ⟨herr, _⟩
  · exact hl
  · obtain ⟨e, he⟩ := herr rest hne
    cases h.symm.trans he

namespace Comes

variable (hc : t.Comes recursive root inside names here)
include hc

theorem reaches : t.Reaches (root ++ names) here :=
  hc.leads.follow_eq

theorem endsInLink_iff :
    t.EndsInLink (root ++ (names ++ [name])) ↔
      ∃ target, t.get? (here ++ [name]) = some (.link target) := by
  rw [← List.append_assoc]
  exact endsInLink_append_singleton hc.reaches

theorem isName_append (hn : IsName name) : ∀ n ∈ root ++ (names ++ [name]), IsName n := by
  rw [← List.append_assoc]
  exact List.forall_mem_append.mpr ⟨hc.isName, List.forall_mem_singleton.mpr hn⟩

/-- One more name leads back only if it names a link to a directory that the walk is inside of. -/
theorem not_leadsBack (h : ∀ target, t.get? (here ++ [name]) = some (.link target) →
      ∀ l ∈ inside, ¬ t.Reaches (root ++ (names ++ [name])) l) :
    ∀ p, p <+: names ++ [name] → ¬ t.LeadsBack root p := by
  intro p hp hback
  rcases List.prefix_concat_iff.mp hp with rfl | hp
  · obtain ⟨hlink, q, l, hq, hne, hql, hl⟩ := hback
    obtain ⟨target, hg⟩ := hc.endsInLink_iff.mp hlink
    have hq : q <+: names := (List.prefix_concat_iff.mp hq).resolve_left hne
    exact h target hg l ((hc.inside_iff l).mpr ⟨q, hq, hql⟩) hl
  · exact hc.noCycle p hp hback

/-- A directory that the walk is inside of is on the way. -/
theorem leadsBack {target : String} (he : t.get? (here ++ [name]) = some (.link target))
    (hi : l ∈ inside)
    (hl : t.Reaches (root ++ (names ++ [name])) l) : t.LeadsBack root (names ++ [name]) := by
  obtain ⟨q, hq, hql⟩ := (hc.inside_iff l).mp hi
  refine ⟨hc.endsInLink_iff.mpr ⟨target, he⟩, q, l, hq.trans (List.prefix_append _ _), ?_, hql, hl⟩
  rintro rfl
  exact absurd hq.length_le (by simp)

/-- The path of an entry of the directory where a walk is. -/
theorem join_eq (hpath : path = (root ++ names : Location).toPath) (hn : IsName name) :
    Path.join path (String.ofList name) = (root ++ (names ++ [name]) : Location).toPath := by
  rw [hpath, Location.join_toPath hc.isName hn, List.append_assoc]

theorem leads_append (hn : IsName name) (he : t.get? (here ++ [name]) = some .directory) :
    t.Leads maxLinks [] (root ++ (names ++ [name])) (here ++ [name]) := by
  rw [← List.append_assoc]
  exact hc.leads.append_directory hn he

theorem reaches_append {bytes : ByteArray} {mode : Nat} (hn : IsName name)
    (he : t.get? (here ++ [name]) = some (.file bytes mode)) :
    t.Reaches (root ++ (names ++ [name])) (here ++ [name]) := by
  rw [← List.append_assoc]
  exact hc.leads.append_file hn he

/-- A walk comes to each directory that it enters. -/
theorem enter (hw : t.WellFormed) (hn : IsName name) (hr : recursive = true)
    (h : t.Enters inside (here ++ [name]) (root ++ (names ++ [name]) : Location).toPath l) :
    t.Comes recursive root (l :: inside) (names ++ [name]) l := by
  have hnames := hc.isName_append hn
  obtain ⟨hl, hd, hs, hback⟩ : t.Leads maxLinks [] (root ++ (names ++ [name])) l ∧
      t.get? l = some .directory ∧ isTooLong (root ++ (names ++ [name]) : Location).toPath = false ∧
      ∀ p, p <+: names ++ [name] → ¬ t.LeadsBack root p := by
    cases h with
    | directory he hs =>
      refine ⟨hc.leads_append hn he, he, hs, hc.not_leadsBack fun target hg => ?_⟩
      cases he.symm.trans hg
    | link he hl hg hi =>
      obtain ⟨hs, hl⟩ := (locate_toPath hnames).mp hl
      refine ⟨leads_of_follow hw (get?_nil t) hl hg, hg, hs,
        hc.not_leadsBack fun _ _ k hk hreach => ?_⟩
      exact hi (List.contains_iff_mem.mpr (Reaches.eq hl hreach ▸ hk))
  refine ⟨hnames, hl, List.forall_mem_cons.mpr ⟨hd, hc.directory⟩, fun k => ?_, hback, hs, ?_⟩
  · rw [List.mem_cons, hc.inside_iff]
    constructor
    · rintro (rfl | ⟨p, hp, hk⟩)
      · exact ⟨_, List.prefix_rfl, hl.follow_eq⟩
      · exact ⟨p, hp.trans (List.prefix_append _ _), hk⟩
    · rintro ⟨p, hp, hk⟩
      rcases List.prefix_concat_iff.mp hp with rfl | hp
      · exact .inl (Reaches.eq hk hl.follow_eq)
      · exact .inr ⟨p, hp, hk⟩
  · rintro rfl
    cases hr

/-- A file in the directory where a walk is, or to which a link there leads, is visible. -/
theorem visible (hn : IsName name) (hk : t.Reaches (root ++ (names ++ [name])) k)
    {bytes : ByteArray} {mode : Nat} (hg : t.get? k = some (.file bytes mode))
    (hs : ∀ target, t.get? (here ++ [name]) = some (.link target) →
      isTooLong (root ++ (names ++ [name]) : Location).toPath = false) :
    t.Visible recursive root (names ++ [name]) where
  below := by simp
  file := ⟨k, hc.isName_append hn, hk, bytes, mode, hg⟩
  direct h := by rw [hc.direct h]; rfl
  noCycle := hc.not_leadsBack fun _ _ l hl hreach => by
    cases hg.symm.trans (hreach.eq hk ▸ hc.directory l hl)
  directoryFits := by simpa using hc.fits
  linkFits hlink := by
    obtain ⟨target, he⟩ := hc.endsInLink_iff.mp hlink
    exact hs target he

/-- The first of visible names names an entry of the directory where the walk is. -/
theorem exists_get?_of_visible {rest : Location}
    (hv : t.Visible recursive root (names ++ name :: rest)) :
    IsName name ∧ ∃ e, t.get? (here ++ [name]) = some e := by
  obtain ⟨k, hf⟩ := hv.file
  obtain ⟨links, hfollow⟩ := hc.leads
  have hn : IsName name := hf.isName name (by simp)
  have hentry : t.follow links here (name :: rest) = .ok (.taken k) := by
    rw [← hfollow, List.append_assoc]
    exact hf.follow
  exact ⟨hn, exists_get?_of_follow hn hentry⟩

/-- A walk shows a visible name in the directory where it is. -/
theorem shows_of_visible (hv : t.Visible recursive root (names ++ [name])) :
    t.Shows recursive inside (here ++ [name]) (root ++ (names ++ [name]) : Location).toPath
      (root ++ (names ++ [name]) : Location).toPath := by
  obtain ⟨hn, e, he⟩ := hc.exists_get?_of_visible hv
  obtain ⟨k, hf⟩ := hv.file
  obtain ⟨bytes, mode, hk⟩ := hf.file
  cases e with
  | file bytes mode => exact .file he
  | directory => cases he.symm.trans (Reaches.eq hf.follow (hc.leads_append hn he).follow_eq ▸ hk)
  | link target =>
    have hs := hv.linkFits (hc.endsInLink_iff.mpr ⟨target, he⟩)
    exact .linkedFile he ((locate_toPath hf.isName).mpr ⟨hs, hf.follow⟩) hk

/-- A walk enters the directory below which visible names go on. -/
theorem enters_of_visible (hw : t.WellFormed) {rest : Location} (hne : rest ≠ [])
    (hv : t.Visible recursive root (names ++ name :: rest)) :
    recursive = true ∧
      ∃ l, t.Enters inside (here ++ [name]) (root ++ (names ++ [name]) : Location).toPath l := by
  obtain ⟨hn, e, he⟩ := hc.exists_get?_of_visible hv
  obtain ⟨k, hf⟩ := hv.file
  have hlength := List.length_pos_iff.mpr hne
  have hprefix : names ++ [name] <+: names ++ name :: rest := by simp
  refine ⟨?_, ?_⟩
  · by_contra hr
    have hone := hv.direct (eq_false_of_ne_true hr)
    simp only [List.length_append, List.length_cons] at hone
    omega
  have hs : isTooLong (root ++ (names ++ [name]) : Location).toPath = false := by
    refine isTooLong_of_prefix ?_ hv.directoryFits
    rw [List.prefix_append_right_inj, List.dropLast_append_cons, List.dropLast_cons_of_ne_nil hne]
    simp
  have hreach : t.Reaches (root ++ (names ++ [name]) ++ rest) k := by
    simpa [Reaches] using hf.follow
  obtain ⟨l, hl, hd⟩ := leads_of_reaches_append hw hne hreach
  cases e with
  | file bytes mode =>
    cases hd.symm.trans (Reaches.eq hl.follow_eq (hc.reaches_append hn he) ▸ he)
  | directory => exact ⟨_, .directory he hs⟩
  | link target =>
    refine ⟨l, .link he ((locate_toPath (hc.isName_append hn)).mpr ⟨hs, hl.follow_eq⟩) hd fun hi =>
      ?_⟩
    exact hv.noCycle _ hprefix (hc.leadsBack he (List.contains_iff_mem.mp hi) hl.follow_eq)

end Comes

/-- A walk shows the texts of the visible names below the directory where it is. -/
theorem mem_walk_iff_visible (hw : t.WellFormed) (hc : t.Comes recursive root inside names here)
    (hpath : path = (root ++ names : Location).toPath) :
    p ∈ t.walk recursive inside here path ↔
      ∃ rest, rest ≠ [] ∧ p = (root ++ (names ++ rest) : Location).toPath ∧
        t.Visible recursive root (names ++ rest) := by
  induction inside, here, path using walk_induction t generalizing names with
  | step inside here path ih =>
    rw [mem_walk_iff]
    constructor
    · rintro ⟨name, hm, hp⟩
      have hn : IsName name := hw.isName_of_mem_names hm
      have hshown := hc.join_eq hpath hn
      cases hp with
      | file he =>
        refine ⟨[name],
          by simp, hshown, hc.visible hn (hc.reaches_append hn he) he fun target hg => ?_⟩
        cases he.symm.trans hg
      | linkedFile he hl hg =>
        obtain ⟨hs, hl⟩ := (locate_toPath (hc.isName_append hn)).mp (hshown ▸ hl)
        exact ⟨[name], by simp, hshown, hc.visible hn hl hg fun _ _ => hs⟩
      | @below l _ h hr hp =>
        have hc' := hc.enter hw hn hr (hshown ▸ h)
        obtain ⟨rest, _, rfl, hv⟩ := (ih name l h hc' hshown).mp hp
        exact ⟨name :: rest, by simp, by simp, by simpa using hv⟩
    · rintro ⟨rest, hne, rfl, hv⟩
      obtain ⟨name, rest, rfl⟩ := List.exists_cons_of_ne_nil hne
      obtain ⟨hn, e, he⟩ := hc.exists_get?_of_visible hv
      have hshown := hc.join_eq hpath hn
      refine ⟨name, mem_names_of_get? he, ?_⟩
      by_cases hrest : rest = []
      · subst hrest
        rw [hshown]
        exact hc.shows_of_visible hv
      · obtain ⟨hr, l, h⟩ := hc.enters_of_visible hw hrest hv
        have hc' := hc.enter hw hn hr h
        rw [← hshown] at h
        refine .below h hr ((ih name l h hc' hshown).mpr ?_)
        exact ⟨rest, hrest, by simp, by simpa using hv⟩

/-- A walk begins in its root. -/
theorem comes_root (hw : t.WellFormed) (hd : t.get? root = some .directory)
    (hs : isTooLong root.toPath = false) (recursive : Bool) : t.Comes recursive root [root]
      [] root where
  isName := by simpa using hw.isName_of_get? hd
  leads := by simpa using hw.leads hd
  directory := List.forall_mem_singleton.mpr hd
  inside_iff l := by
    have hroot : t.Reaches root root := (hw.leads hd).follow_eq
    rw [List.mem_singleton]
    constructor
    · rintro rfl
      exact ⟨[], List.prefix_rfl, by simpa using hroot⟩
    · rintro ⟨p, hp, hl⟩
      cases List.prefix_nil.mp hp
      exact Reaches.eq (by simpa using hl) hroot
  noCycle p hp := by
    rintro ⟨_, q, _, hq, hne, _⟩
    cases List.prefix_nil.mp hp
    exact hne (List.prefix_nil.mp hq)
  fits := by simpa using hs
  direct _ := rfl

/-- The files in a directory whose path can be used are those with visible names below it. -/
theorem mem_filesIn_iff (hw : t.WellFormed) (hd : t.get? root = some .directory)
    (hs : isTooLong root.toPath = false) :
    p ∈ t.filesIn recursive root ↔
      ∃ names, p = (root ++ names : Location).toPath ∧ t.Visible recursive root names := by
  rw [filesIn, mem_walk_iff_visible hw (comes_root hw hd hs recursive) (by simp)]
  constructor
  · rintro ⟨names, _, hp, hv⟩
    exact ⟨names, hp, hv⟩
  · rintro ⟨names, hp, hv⟩
    exact ⟨names, hv.below, hp, hv⟩

end FileTree

end ScriptLint
