import Mathlib.Data.List.Basic
import Mathlib.Data.List.Induction
import ScriptLint.FileTree.Resolve

/-!
The text of a location, and the trees that can be on a disk. Main statements: `splitSlash_toPath`,
the names that the text of a location holds, `join_toPath`, the text of the entries of a directory,
and `WellFormed.get?_of_append`, whatever has an entry below it is a directory.
-/

namespace ScriptLint

/-- What can be the name of an entry. -/
structure IsName (name : List Char) : Prop where
  notFiller : Path.isFiller name = false
  notParent : name ≠ ['.', '.']
  noSlash : '/' ∉ name
  noNul : '\x00' ∉ name
  short : byteLength name ≤ maxNameLength

instance (name : List Char) : Decidable (IsName name) :=
  decidable_of_iff
    (Path.isFiller name = false ∧ name ≠ ['.', '.'] ∧ '/' ∉ name ∧ '\x00' ∉ name ∧
      byteLength name ≤ maxNameLength)
    ⟨fun ⟨a, b, c, d, e⟩ => ⟨a, b, c, d, e⟩, fun ⟨a, b, c, d, e⟩ => ⟨a, b, c, d, e⟩⟩

namespace Path

variable {name s : List Char} {names : List (List Char)}

theorem splitSlash_of_no_slash (h : '/' ∉ name) : splitSlash name = [name] := by
  induction name with
  | nil => rfl
  | cons c name ih =>
    have hc : c ≠ '/' := fun e => h (e ▸ List.mem_cons_self)
    have ih := ih fun hm => h (List.mem_cons_of_mem c hm)
    simp [splitSlash, ih]

theorem splitSlash_joinSlash (hne : names ≠ []) (h : ∀ name ∈ names, '/' ∉ name) :
    splitSlash (joinSlash names) = names := by
  fun_induction joinSlash names with
  | case1 => exact absurd rfl hne
  | case2 name => exact splitSlash_of_no_slash (h name List.mem_cons_self)
  | case3 name names hnames ih =>
    have ih := ih (fun e => hnames e) fun n hn => h n (List.mem_cons_of_mem name hn)
    rw [splitSlash_append, splitSlash_of_no_slash (h name List.mem_cons_self), ih,
      List.singleton_append]

theorem joinSlash_append_singleton (hne : names ≠ []) :
    joinSlash (names ++ [name]) = joinSlash names ++ '/' :: name := by
  fun_induction joinSlash names with
  | case1 => exact absurd rfl hne
  | case2 first => rfl
  | case3 first names hnames ih =>
    have ih := ih fun e => hnames e
    cases names with
    | nil => exact absurd rfl hnames
    | cons second names =>
      calc joinSlash (first :: second :: names ++ [name])
          = first ++ '/' :: joinSlash (second :: names ++ [name]) := rfl
        _ = first ++ '/' :: joinSlash (second :: names) ++ '/' :: name := by rw [ih]; simp

theorem mem_joinSlash {c : Char} (hc : c ∈ joinSlash names) :
    c = '/' ∨ ∃ name ∈ names, c ∈ name := by
  fun_induction joinSlash names with
  | case1 => cases hc
  | case2 name => exact .inr ⟨name, List.mem_cons_self, hc⟩
  | case3 name names hnames ih =>
    rcases List.mem_append.mp hc with hc | hc
    · exact .inr ⟨name, List.mem_cons_self, hc⟩
    · rcases List.mem_cons.mp hc with rfl | hc
      · exact .inl rfl
      · rcases ih hc with rfl | ⟨n, hn, hc⟩
        · exact .inl rfl
        · exact .inr ⟨n, List.mem_cons_of_mem name hn, hc⟩

/-- The last segment of a text is the last one of its parts, if it is no filler. -/
theorem exists_ofText_eq {above : List (List Char)} (h : splitSlash s = above ++ [name])
    (hf : ¬ isFiller name = true) : ∃ lead above, Parts.ofText s = ⟨lead, above ++ [name]⟩ := by
  have htail {first : List Char} {names : List (List Char)} (h : first :: names = above ++ [name])
      (hfirst : isFiller first = true) : ∃ above, names = above ++ [name] := by
    cases above with
    | nil =>
      cases h
      exact absurd hfirst hf
    | cons second above => exact ⟨above, (List.cons.inj h).2⟩
  fun_cases Parts.ofText s with
  | case1 =>
    obtain ⟨above, h⟩ := htail h rfl
    simp at h
  | case2 s =>
    obtain ⟨above, h⟩ := htail h rfl
    exact ⟨.root, above, by rw [h]⟩
  | case3 s body _ _ hs =>
    obtain ⟨above, h⟩ := htail (hs.symm.trans h) rfl
    exact ⟨.current, above, by rw [h]⟩
  | case4 => exact ⟨.plain, above, by rw [h]⟩

/-- The last component of a path is its last segment, if that is a name. -/
theorem fileName?_of_splitSlash {path : String} {above : List (List Char)}
    (h : splitSlash path.toList = above ++ [name]) (hf : ¬ isFiller name = true)
    (hp : ¬ name = ['.', '.']) : fileName? path = some name := by
  have hlast (cs : List Component) (above : List (List Char)) :
      (cs ++ (above ++ [name]).filterMap component?).getLast? = some (.name name) := by
    simp [component?, hf, hp]
  obtain ⟨lead, above, hparts⟩ := exists_ofText_eq h hf
  rw [fileName?, components, hparts, Parts.components, hlast]

/-- The text of names does not end with a slash. -/
theorem getLast?_joinSlash_ne_slash (h : ∀ name ∈ names, IsName name) :
    (joinSlash names).getLast? ≠ some '/' := by
  induction names using List.reverseRecOn with
  | nil => simp [joinSlash]
  | append_singleton names name _ =>
    have hname : IsName name := h name (by simp)
    have hlast : name.getLast? ≠ some '/' := fun e => hname.noSlash (List.mem_of_getLast? e)
    have hne : name ≠ [] := by
      rintro rfl
      exact absurd hname.notFiller (by decide)
    cases names with
    | nil => exact hlast
    | cons first names =>
      rw [joinSlash_append_singleton (List.cons_ne_nil first names), List.getLast?_append,
        List.getLast?_cons_of_ne_nil hne]
      cases hg : name.getLast? with
      | none => exact absurd (List.getLast?_eq_none_iff.mp hg) hne
      | some c => exact fun e => hlast (hg.trans e)

end Path

namespace Location

variable {l k : Location} {name : List Char}

theorem isAbsolute_toPath (l : Location) : Path.isAbsolute l.toPath = true := by
  simp [Path.isAbsolute, toPath]

/-- The names that the text of a location holds, after the empty one in front of its first slash. -/
theorem splitSlash_toPath (h : ∀ name ∈ l, '/' ∉ name) :
    Path.splitSlash l.toPath.toList = [] :: if l = [] then [[]] else l := by
  have hs : Path.splitSlash l.toPath.toList = [] :: Path.splitSlash (Path.joinSlash l) := by
    simp [toPath, Path.splitSlash]
  rw [hs]
  by_cases hl : l = []
  · subst hl
    rfl
  · rw [if_neg hl, Path.splitSlash_joinSlash hl h]

/-- The extension of the path of a location is that of its last name. -/
theorem extension?_toPath (h : ∀ n ∈ l ++ [name], IsName n) :
    Path.extension? (l ++ [name] : Location).toPath =
      (Path.nameExtension? name).map String.ofList := by
  have hname : IsName name := h name (by simp)
  have hs : Path.splitSlash (l ++ [name] : Location).toPath.toList = ([] :: l) ++ [name] := by
    rw [splitSlash_toPath fun n hn => (h n hn).noSlash, if_neg (by simp), List.cons_append]
  rw [Path.extension?,
    Path.fileName?_of_splitSlash hs (by simp [hname.notFiller]) hname.notParent, Option.bind_some]

/-- Different locations have different texts. -/
theorem toPath_inj (hl : ∀ name ∈ l, IsName name) (hk : ∀ name ∈ k, IsName name) :
    l.toPath = k.toPath ↔ l = k := by
  refine ⟨fun e => ?_, fun e => e ▸ rfl⟩
  have hs := congrArg (Path.splitSlash ·.toList) e
  simp only [splitSlash_toPath fun name hn => (hl name hn).noSlash,
    splitSlash_toPath fun name hn => (hk name hn).noSlash, List.cons.injEq, true_and] at hs
  have hempty : [] ∉ l ∧ [] ∉ k := by
    refine ⟨fun hn => ?_, fun hn => ?_⟩
    · exact absurd (hl [] hn).notFiller (by decide)
    · exact absurd (hk [] hn).notFiller (by decide)
  split at hs
  · split at hs
    · simp_all
    · exact absurd (hs ▸ List.mem_singleton_self []) hempty.2
  · split at hs
    · exact absurd (hs ▸ List.mem_singleton_self []) hempty.1
    · exact hs

theorem noNul_toPath (h : ∀ name ∈ l, IsName name) : '\x00' ∉ l.toPath.toList := by
  intro hm
  rw [toPath, String.toList_ofList] at hm
  rcases List.mem_cons.mp hm with e | hm
  · cases e
  · rcases Path.mem_joinSlash hm with e | ⟨name, hn, hm⟩
    · cases e
    · exact (h name hn).noNul hm

/-- The text of an entry of a directory. -/
theorem join_toPath (hl : ∀ name ∈ l, IsName name) (h : IsName name) :
    Path.join l.toPath (String.ofList name) = (l ++ [name] : Location).toPath := by
  have habs : Path.isAbsolute (String.ofList name) = false := by
    refine eq_false_of_ne_true fun ha => h.noSlash (List.mem_of_head? ?_)
    simpa [Path.isAbsolute] using ha
  rw [Path.join, if_neg (by simp [habs]), if_neg (by simp [toPath])]
  by_cases he : l = []
  · subst he
    rw [if_pos (by rfl)]
    refine String.toList_inj.mp ?_
    simp [toPath, Path.joinSlash]
  · have hlast : (Path.joinSlash l).getLast? ≠ some '/' := Path.getLast?_joinSlash_ne_slash hl
    have hne : Path.joinSlash l ≠ [] := by
      intro e
      have hs := Path.splitSlash_joinSlash he fun name hn => (hl name hn).noSlash
      rw [e] at hs
      have hn : [] ∈ l := hs ▸ List.mem_singleton_self []
      exact absurd (hl [] hn).notFiller (by decide)
    rw [if_neg (by simpa [toPath, List.getLast?_cons_of_ne_nil hne] using hlast)]
    refine String.toList_inj.mp ?_
    simp [toPath, Path.joinSlash_append_singleton he]

end Location

namespace FileTree

/-- The trees that can be on a disk: entries have names, and they lie in directories. -/
structure WellFormed (t : FileTree) : Prop where
  isName : ∀ entry ∈ t.entries, ∀ name ∈ entry.1, IsName name
  parent : ∀ entry ∈ t.entries, t.get? entry.1.dropLast = some .directory

instance (t : FileTree) : Decidable t.WellFormed :=
  decidable_of_iff
    ((∀ entry ∈ t.entries, ∀ name ∈ entry.1, IsName name) ∧
      ∀ entry ∈ t.entries, t.get? entry.1.dropLast = some .directory)
    ⟨fun ⟨a, b⟩ => ⟨a, b⟩, fun ⟨a, b⟩ => ⟨a, b⟩⟩

variable {t : FileTree} {l : Location} {name : List Char} {names : List (List Char)} {e : Entry}

theorem mem_entries_of_get? (hl : l ≠ []) (h : t.get? l = some e) : (l, e) ∈ t.entries := by
  rw [get?, if_neg hl] at h
  exact Keyed.mem_of_lookup_eq_some h

theorem exists_mem_entries_of_mem_names (h : name ∈ t.names l) :
    ∃ e, ((l ++ [name], e) : Location × Entry) ∈ t.entries := by
  obtain ⟨⟨k, e⟩, hm, hk⟩ := List.mem_filterMap.mp h
  by_cases hd : k.dropLast = l
  · rw [if_pos hd] at hk
    refine ⟨e, ?_⟩
    rwa [← hd, List.dropLast_append_getLast? name hk]
  · rw [if_neg hd] at hk
    cases hk

namespace WellFormed

/-- The names on the way to an entry. -/
theorem isName_of_get? (hw : t.WellFormed) (h : t.get? l = some e) : ∀ name ∈ l, IsName name := by
  by_cases hl : l = []
  · subst hl
    exact nofun
  · exact hw.isName _ (mem_entries_of_get? hl h)

theorem isName_of_mem_names (hw : t.WellFormed) (h : name ∈ t.names l) : IsName name := by
  obtain ⟨e, hm⟩ := exists_mem_entries_of_mem_names h
  exact hw.isName _ hm name (by simp)

theorem get?_dropLast (hw : t.WellFormed) (h : t.get? l = some e) :
    t.get? l.dropLast = some .directory := by
  by_cases hl : l = []
  · subst hl
    exact get?_nil t
  · exact hw.parent _ (mem_entries_of_get? hl h)

/-- Whatever has an entry below it is a directory. -/
theorem get?_of_append (hw : t.WellFormed) (hne : names ≠ []) (h : t.get? (l ++ names) = some e) :
    t.get? l = some .directory := by
  induction names using List.reverseRecOn generalizing e with
  | nil => exact absurd rfl hne
  | append_singleton names name ih =>
    have hd : t.get? (l ++ names) = some .directory := by
      have hp := hw.get?_dropLast h
      rwa [← List.append_assoc, List.dropLast_concat] at hp
    by_cases hn : names = []
    · subst hn
      rwa [List.append_nil] at hd
    · exact ih hn hd

end WellFormed

end FileTree

end ScriptLint
