import ScriptLint.Proofs.Characters

/-!
Shown paths. What a report shows of a path leads back to it from the root of the report, so no two
files are shown alike. Main statements: `components_join`, the components of one path seen from
another, `display_cases`, what is shown, and `components_join_display`.
-/

namespace ScriptLint.Path

variable {segs : List (List Char)} {base path root : String}

/-! ## Segments -/

theorem component?_eq_none_iff {seg : List Char} : component? seg = none ↔ isFiller seg = true := by
  unfold component?
  split
  · next h => exact iff_of_true rfl h
  · next h =>
    refine iff_of_false ?_ h
    split <;> simp

/-- Fillers at the start, or at the end, name nothing. -/
theorem filterMap_dropWhile (segs : List (List Char)) :
    (segs.dropWhile isFiller).filterMap component? = segs.filterMap component? := by
  induction segs with
  | nil => rfl
  | cons seg segs ih =>
    by_cases h : isFiller seg = true
    · simp [h, ih, component?_eq_none_iff.mpr h]
    · simp [h]

theorem filterMap_trimFillers (segs : List (List Char)) :
    (trimFillers segs).filterMap component? = segs.filterMap component? := by
  rw [trimFillers, List.filterMap_reverse, filterMap_dropWhile, List.filterMap_reverse,
    List.reverse_reverse]

theorem filterMap_dropComponents (n : Nat) (segs : List (List Char)) :
    (dropComponents n segs).filterMap component? = (segs.filterMap component?).drop n := by
  fun_induction dropComponents n segs with
  | case1 => rfl
  | case2 n => rfl
  | case3 n seg segs hf ih => rw [ih, List.filterMap_cons, component?_eq_none_iff.mpr hf]
  | case4 n seg segs hf ih =>
    obtain ⟨c, hc⟩ := Option.ne_none_iff_exists'.mp (mt component?_eq_none_iff.mp hf)
    rw [ih, List.filterMap_cons, hc, List.drop_succ_cons]

/-- The segments do not start with a filler. -/
def StartsNamed (segs : List (List Char)) : Prop :=
  ∀ seg ∈ segs.head?, isFiller seg = false

theorem startsNamed_dropWhile (segs : List (List Char)) :
    StartsNamed (segs.dropWhile isFiller) := by
  intro seg hseg
  have hhead := List.head?_dropWhile_not isFiller segs
  rw [hseg] at hhead
  simpa using hhead

theorem StartsNamed.trimFillers (h : StartsNamed segs) : StartsNamed (trimFillers segs) := by
  have hsplit :=
    congrArg List.reverse (List.takeWhile_append_dropWhile (p := isFiller) (l := segs.reverse))
  rw [List.reverse_append, List.reverse_reverse] at hsplit
  intro seg hseg
  refine h seg ?_
  rw [← hsplit, List.head?_append, ← Path.trimFillers, hseg]
  rfl

/-- Segments that start with a name make up the text of a relative path. -/
theorem StartsNamed.isAbsolute_eq_false (h : StartsNamed segs) (hslash : ∀ seg ∈ segs, '/' ∉ seg) :
    isAbsolute (String.ofList (joinSlash segs)) = false := by
  cases segs with
  | nil => rfl
  | cons seg segs =>
    have hsplit := splitSlash_joinSlash (List.cons_ne_nil seg segs) hslash
    rw [isAbsolute, String.toList_ofList, beq_eq_false_iff_ne]
    intro hhead
    obtain ⟨s, hs⟩ := List.head?_eq_some_iff.mp hhead
    -- A slash at the start would follow an empty segment.
    rw [hs, splitSlash] at hsplit
    cases hsplit
    cases h [] rfl

/-- The text of segments that start with a name is neither empty nor a dot. -/
theorem StartsNamed.isFiller_joinSlash (h : StartsNamed segs) (hslash : ∀ seg ∈ segs, '/' ∉ seg)
    (hne : segs ≠ []) :
    isFiller (joinSlash segs) = false := by
  by_contra hf
  rw [Bool.not_eq_false, isFiller, Bool.or_eq_true, List.isEmpty_iff, beq_iff_eq] at hf
  have hsplit := splitSlash_joinSlash hne hslash
  -- An empty text, or a dot, would be the only segment.
  rcases hf with hf | hf
  all_goals
    rw [hf] at hsplit
    cases hsplit
    cases h _ rfl

/-! ## Components -/

theorem isAbsolute_iff : isAbsolute path = true ↔ ∃ s, path.toList = '/' :: s := by
  rw [isAbsolute, beq_iff_eq]
  cases path.toList <;> simp

/-- All components of an absolute path but the root are those that its segments name. -/
theorem components_of_isAbsolute (h : isAbsolute path = true) :
    components path = .root :: (splitSlash path.toList).filterMap component? := by
  obtain ⟨s, hs⟩ := isAbsolute_iff.mp h
  rw [components, hs]
  rfl

/-- The components of a path seen from a directory. -/
theorem components_join (hbase : isAbsolute base = true) (hpath : isAbsolute path = false) :
    components (join base path) = components base ++
      (splitSlash path.toList).filterMap component? := by
  obtain ⟨s, hs⟩ := isAbsolute_iff.mp hbase
  have habsolute (rest : String) : isAbsolute (base ++ rest) = true :=
    isAbsolute_iff.mpr ⟨s ++ rest.toList, by rw [String.toList_append, hs, List.cons_append]⟩
  unfold join
  rw [if_neg (by simp [hpath]), if_neg (by simp [hs])]
  split
  · next hlast =>
    -- The slash at the end of the directory is the one between the two.
    obtain ⟨front, hfront⟩ := List.getLast?_eq_some_iff.mp (eq_of_beq hlast)
    rw [components_of_isAbsolute (habsolute path), components_of_isAbsolute hbase,
      String.toList_append, hfront, List.append_assoc, List.singleton_append, splitSlash_append,
        splitSlash_append, List.filterMap_append,
      List.filterMap_append]
    simp [splitSlash, component?, isFiller]
  · rw [String.append_assoc, components_of_isAbsolute (habsolute _), components_of_isAbsolute hbase,
      String.toList_append, String.toList_append]
    have hslash : "/".toList ++ path.toList = '/' :: path.toList := rfl
    rw [hslash, splitSlash_append, List.filterMap_append]
    rfl

/-! ## What is shown -/

/-- The segments are those that a report shows of a path below the root. -/
structure ShownBelow (root path : String) (segs : List (List Char)) : Prop where
  startsNamed : StartsNamed segs
  noSlash : ∀ seg ∈ segs, '/' ∉ seg
  components_eq : components path = components root ++ segs.filterMap component?

/-- What is left of an absolute path below the root, if the root is at its start. -/
theorem exists_shownBelow (hroot : isAbsolute root = true) (hpath : isAbsolute path = true)
    (hbelow : components root <+: components path) :
    ∃ segs, ShownBelow root path segs ∧
      (Parts.ofText path.toList).below? (Parts.ofText root.toList) = some (joinSlash segs) := by
  obtain ⟨r, hr⟩ := isAbsolute_iff.mp hroot
  obtain ⟨s, hs⟩ := isAbsolute_iff.mp hpath
  have hrootComponents : components root = .root :: (splitSlash r).filterMap component? := by
    rw [components, hr]
    rfl
  have hpathComponents : components path = .root :: (splitSlash s).filterMap component? := by
    rw [components, hs]
    rfl
  obtain ⟨rest, hrest⟩ := hbelow
  rw [hrootComponents, hpathComponents, List.cons_append, List.cons_inj_right] at hrest
  let n := ((splitSlash r).filterMap component?).length
  refine ⟨trimFillers ((dropComponents n (splitSlash s)).dropWhile isFiller), ⟨?_, ?_, ?_⟩, ?_⟩
  · exact (startsNamed_dropWhile _).trimFillers
  · intro seg hseg
    have hseg := (List.dropWhile_sublist isFiller).subset (mem_of_mem_trimFillers hseg)
    exact noSlash_of_mem_splitSlash seg (mem_of_mem_dropComponents hseg)
  · rw [filterMap_trimFillers, filterMap_dropWhile, filterMap_dropComponents, hrootComponents,
      hpathComponents, ← hrest, List.drop_left, List.cons_append]
  · have hstart : (Parts.ofText root.toList).components.isPrefixOf
        (Parts.ofText path.toList).components = true :=
      List.isPrefixOf_iff_prefix.mpr
        ⟨rest, by rw [← components, ← components, hrootComponents, hpathComponents, ← hrest,
          List.cons_append]⟩
    have hlength : (Parts.ofText root.toList).components.length = n + 1 :=
      (congrArg List.length hrootComponents).trans (List.length_cons ..)
    simp only [Parts.below?, hstart, hlength]
    rw [hs]
    rfl

/-- Nothing is left below a root that is not at the start of the path. -/
theorem below?_eq_none (h : ¬ components root <+: components path) :
    (Parts.ofText path.toList).below? (Parts.ofText root.toList) = none := by
  have hstart := Bool.eq_false_iff.mpr (mt List.isPrefixOf_iff_prefix.mp h)
  rw [components, components] at hstart
  simp [Parts.below?, hstart]

theorem normalizeSeparators_of_lacks (h : Lacks '\\' path) : normalizeSeparators path = path := by
  have hsame : path.toList.map (fun c => if c = '\\' then '/' else c) = path.toList.map id :=
    List.map_congr_left fun c hc => if_neg fun (he : c = '\\') => h (he ▸ hc)
  rw [normalizeSeparators, hsame, List.map_id, String.ofList_toList]

/-- The text that a report shows of the segments below its root. -/
def textBelow (segs : List (List Char)) : String :=
  if segs = [] then "." else String.ofList (joinSlash segs)

/-- A path that is left, or a dot for the root itself. -/
def orDot (s : List Char) : String :=
  if s = [] then "." else String.ofList s

/-- What is left of a path: its segments below the root, or the path itself. -/
theorem belowRoot_cases (hroot : isAbsolute root = true) (hpath : isAbsolute path = true) :
    (∃ segs, ShownBelow root path segs ∧ orDot (belowRoot path (some root)) = textBelow segs) ∨
      ¬ components root <+: components path ∧ orDot (belowRoot path (some root)) = path := by
  by_cases hbelow : components root <+: components path
  · left
    obtain ⟨segs, hsegs, heq⟩ := exists_shownBelow hroot hpath hbelow
    refine ⟨segs, hsegs, ?_⟩
    simp only [belowRoot, Option.bind_some, heq, Option.getD_some, orDot, textBelow]
    refine if_congr ⟨fun he => ?_, fun he => ?_⟩ rfl rfl
    · by_contra hne
      have hnamed := hsegs.startsNamed.isFiller_joinSlash hsegs.noSlash hne
      rw [he] at hnamed
      cases hnamed
    · rw [he]
      rfl
  · right
    refine ⟨hbelow, ?_⟩
    obtain ⟨s, hs⟩ := isAbsolute_iff.mp hpath
    simp only [belowRoot, Option.bind_some, below?_eq_none hbelow, Option.getD_none, orDot]
    rw [if_neg (by simp [hs]), String.ofList_toList]

namespace ShownBelow

variable (h : ShownBelow root path segs)

include h

theorem startsWith_root : components root <+: components path :=
  ⟨segs.filterMap component?, h.components_eq.symm⟩

theorem components_eq_iff : components path = components root ↔ segs = [] := by
  rw [h.components_eq, List.append_right_eq_self]
  constructor
  · intro hnone
    by_contra hne
    obtain ⟨seg, rest, rfl⟩ := List.exists_cons_of_ne_nil hne
    have hseg :=
      component?_eq_none_iff.mp (List.filterMap_eq_nil_iff.mp hnone seg List.mem_cons_self)
    rw [h.startsNamed seg rfl] at hseg
    cases hseg
  · rintro rfl
    rfl

theorem isAbsolute_textBelow : isAbsolute (textBelow segs) = false := by
  unfold textBelow
  split
  · rfl
  · exact h.startsNamed.isAbsolute_eq_false h.noSlash

theorem textBelow_eq_dot_iff : textBelow segs = "." ↔ segs = [] := by
  unfold textBelow
  split
  · next hs => exact iff_of_true rfl hs
  · next hs =>
    refine iff_of_false (fun he => ?_) hs
    have hnamed := h.startsNamed.isFiller_joinSlash h.noSlash hs
    rw [← String.toList_ofList (l := joinSlash segs), he] at hnamed
    cases hnamed

theorem components_join_textBelow (hroot : isAbsolute root = true) :
    components (join root (textBelow segs)) = components path := by
  rw [components_join hroot h.isAbsolute_textBelow, h.components_eq, textBelow]
  split
  · next hs =>
    rw [hs]
    rfl
  · next hs => rw [String.toList_ofList, splitSlash_joinSlash hs h.noSlash]

end ShownBelow

/-- What is left of an absolute path leads back to it from the root. It is relative if the root is
at the start of the path, component by component, a dot if the two are the same, and the path itself
otherwise. -/
theorem components_join_belowRoot (hroot : isAbsolute root = true)
    (hpath : isAbsolute path = true) :
    let left := orDot (belowRoot path (some root))
    components (join root left) = components path ∧
      (isAbsolute left = false ↔ components root <+: components path) ∧
      (left = "." ↔ components path = components root) ∧
      (¬ components root <+: components path → left = path) := by
  simp only
  rcases belowRoot_cases hroot hpath with ⟨segs, hsegs, heq⟩ | ⟨hbelow, heq⟩
  · rw [heq]
    refine ⟨hsegs.components_join_textBelow hroot,
      iff_of_true hsegs.isAbsolute_textBelow hsegs.startsWith_root, ?_, ?_⟩
    · rw [hsegs.textBelow_eq_dot_iff, hsegs.components_eq_iff]
    · exact fun hbelow => absurd hsegs.startsWith_root hbelow
  · rw [heq]
    refine ⟨by rw [join, if_pos hpath], ?_, ?_, fun _ => rfl⟩
    · rw [hpath]
      exact iff_of_false Bool.noConfusion hbelow
    · refine iff_of_false ?_ fun he => hbelow (he ▸ List.prefix_rfl)
      rintro rfl
      cases hpath

/-! ## Paths of any bytes -/

/-- What reports show of a path is UTF-8; names above the root need not be. -/
def ShowsText (root path : ByteArray) : Prop :=
  (Utf8.decode? (shownBytes path (some root))).isSome

instance (root path : ByteArray) : Decidable (ShowsText root path) :=
  inferInstanceAs (Decidable ((Utf8.decode? (shownBytes path (some root))).isSome = true))

theorem ofUInt8_toUInt8 {c : Char} (hc : c.toNat < 256) : Char.ofUInt8 c.toUInt8 = c := by
  have hbyte : c.toUInt8.toNat = c.toNat := Nat.mod_eq_of_lt hc
  rw [← Char.ofNat_toNat (Char.ofUInt8 _), toNat_ofUInt8, hbyte, Char.ofNat_toNat]

/-- What is left of a path has a character for each byte, as the path has. -/
theorem toNat_of_mem_belowRoot {path : ByteArray} {root : Option String} {c : Char}
    (h : c ∈ belowRoot (ofBytes path) root) : c.toNat < 256 := by
  by_contra hlarge
  refine not_mem_belowRoot ?_ ?_ (fun hc => hlarge ?_) root h
  · rintro rfl
    exact hlarge (by decide)
  · rintro rfl
    exact hlarge (by decide)
  · rw [ofBytes, String.toList_ofList] at hc
    obtain ⟨b, -, rfl⟩ := List.mem_map.mp hc
    exact b.toNat_lt

theorem eq_toUTF8_of_decode? {bytes : ByteArray} {text : String}
    (h : Utf8.decode? bytes = some text) :
    bytes = text.toUTF8 := by
  rw [Utf8.decode?, String.fromUTF8?] at h
  split at h
  · cases h
    rfl
  · cases h

/-- A text is a path of which nothing but UTF-8 is shown. -/
theorem showsText_toUTF8 (root path : String) : ShowsText root.toUTF8 path.toUTF8 := by
  have hleft : shownBytes path.toUTF8 (some root.toUTF8) =
      (String.ofList (belowRoot path (some root))).toUTF8 := by
    refine ByteArray.ext (Array.toList_inj.mp ?_)
    have hbytes := bytesOf_eq (String.ofList (belowRoot path (some root)))
    rw [String.toList_ofList, ← toBytes_encode, ← belowRoot_encode] at hbytes
    exact hbytes.symm
  rw [ShowsText, hleft, Utf8.decode?_toUTF8]
  rfl

/-- If what is left of a path is UTF-8, it has the characters that stand for the bytes of a text. -/
theorem ShowsText.exists_encode {root path : ByteArray} (h : ShowsText root path) :
    ∃ text : String, belowRoot (ofBytes path) (some (ofBytes root)) = encode text.toList ∧
      Utf8.decodeLossy (shownBytes path (some root)) = text.toList := by
  obtain ⟨text, htext⟩ := Option.isSome_iff_exists.mp h
  have hbytes := eq_toUTF8_of_decode? htext
  refine ⟨text, ?_, by rw [hbytes, Utf8.decodeLossy_toUTF8]⟩
  have hback : (belowRoot (ofBytes path) (some (ofBytes root))).map (Char.ofUInt8 ∘ Char.toUInt8) =
      (belowRoot (ofBytes path) (some (ofBytes root))).map id :=
    List.map_congr_left fun c hc => ofUInt8_toUInt8 (toNat_of_mem_belowRoot hc)
  rw [List.map_id, ← List.map_map] at hback
  rw [← hback, encode, ← bytesOf_eq, bytesOf, ← hbytes]
  rfl

/-- What is shown of a path, byte by byte: nothing is replaced in a text. -/
theorem ofBytes_displayBytes {root path : ByteArray} (hslash : Lacks '\\' (ofBytes path))
    (htext : ShowsText root path) :
    ofBytes (displayBytes path (some root)).toUTF8 =
      orDot (belowRoot (ofBytes path) (some (ofBytes root))) := by
  obtain ⟨text, hleft, hdecode⟩ := htext.exists_encode
  have hlacks : Lacks '\\' text := fun hc =>
    not_mem_belowRoot (by decide) (by decide) hslash (some (ofBytes root))
      (hleft ▸ (mem_encode_iff (by decide)).mpr hc)
  refine String.toList_inj.mp ?_
  rw [ofBytes_toUTF8, displayBytes, hdecode, String.ofList_toList,
    normalizeSeparators_of_lacks hlacks, hleft, orDot]
  have hempty : encode text.toList = [] ↔ text = "" := by
    rw [← String.toList_eq_nil_iff]
    exact encode_injective.eq_iff' rfl
  simp only [hempty]
  split
  · rfl
  · rw [String.toList_ofList]

/-- What is shown of an absolute path leads back to it from the root, if it is UTF-8. It is relative
if the root is at the start of the path, component by component, a dot if the two are the same, and
the path itself otherwise; so paths with other components are shown otherwise. -/
theorem components_join_display {root path : ByteArray} (hroot : isAbsolute (ofBytes root) = true)
    (hpath : isAbsolute (ofBytes path) = true) (hslash : Lacks '\\' (ofBytes path))
    (htext : ShowsText root path) :
    let shown := ofBytes (displayBytes path (some root)).toUTF8
    components (join (ofBytes root) shown) = components (ofBytes path) ∧
      (isAbsolute shown = false ↔ components (ofBytes root) <+: components (ofBytes path)) ∧
      (shown = "." ↔ components (ofBytes path) = components (ofBytes root)) ∧
      (¬ components (ofBytes root) <+: components (ofBytes path) → shown = ofBytes path) ∧
      ∀ other, isAbsolute (ofBytes other) = true → Lacks '\\' (ofBytes other) →
        ShowsText root other →
        components (ofBytes other) ≠ components (ofBytes path) →
        displayBytes other (some root) ≠ displayBytes path (some root) := by
  intro shown
  have hshown : shown = orDot (belowRoot (ofBytes path) (some (ofBytes root))) :=
    ofBytes_displayBytes hslash htext
  obtain ⟨hback, hrelative, hdot, hbeside⟩ := components_join_belowRoot hroot hpath
  rw [← hshown] at hback hrelative hdot hbeside
  refine ⟨hback, hrelative, hdot, hbeside,
    fun other hother hotherSlash hotherText hne heq => hne ?_⟩
  have hotherBack := (components_join_belowRoot hroot hother).1
  rw [← ofBytes_displayBytes hotherSlash hotherText, heq] at hotherBack
  rw [← hotherBack, ← hback]

/-- A path below a root, with slashes and dots of no effect in both, one beside the root, and one
below a root that is not UTF-8. -/
theorem components_join_display_workRepo :
    let root := "/work//repo/.".toUTF8
    let path := "/work/./repo/scripts/../x.sh".toUTF8
    let beside := "/work/repo2".toUTF8
    let oddRoot : ByteArray := "/w".toUTF8.push 0xff
    (isAbsolute (ofBytes root) = true ∧ isAbsolute (ofBytes path) = true ∧
      Lacks '\\' (ofBytes path) ∧
        ShowsText root path) ∧
      (isAbsolute (ofBytes beside) = true ∧ Lacks '\\' (ofBytes beside) ∧ ShowsText root beside) ∧
      (isAbsolute (ofBytes oddRoot) = true ∧
        isAbsolute (ofBytes (oddRoot ++ "/x.sh".toUTF8)) = true ∧
        Lacks '\\' (ofBytes (oddRoot ++ "/x.sh".toUTF8)) ∧
          ShowsText oddRoot (oddRoot ++ "/x.sh".toUTF8)) ∧
      components (join (ofBytes root) (ofBytes (displayBytes path (some root)).toUTF8)) =
        components (ofBytes path) ∧
      ofBytes (displayBytes beside (some root)).toUTF8 = ofBytes beside ∧
      components (join (ofBytes oddRoot)
        (ofBytes (displayBytes (oddRoot ++ "/x.sh".toUTF8) (some oddRoot)).toUTF8)) =
        components (ofBytes (oddRoot ++ "/x.sh".toUTF8)) := by
  intro root path beside oddRoot
  have hroot : isAbsolute (ofBytes root) = true ∧ isAbsolute (ofBytes path) = true ∧
      Lacks '\\' (ofBytes path) ∧
      ShowsText root path :=
        ⟨by decide +kernel, by decide +kernel, by decide +kernel, showsText_toUTF8 _ _⟩
  have hbeside : isAbsolute (ofBytes beside) = true ∧ Lacks '\\' (ofBytes beside) ∧
      ShowsText root beside :=
    ⟨by decide +kernel, by decide +kernel, showsText_toUTF8 _ _⟩
  have hodd : isAbsolute (ofBytes oddRoot) = true ∧
      isAbsolute (ofBytes (oddRoot ++ "/x.sh".toUTF8)) = true ∧
      Lacks '\\' (ofBytes (oddRoot ++ "/x.sh".toUTF8)) ∧
        ShowsText oddRoot (oddRoot ++ "/x.sh".toUTF8) := by
    decide +kernel
  have hcut : ¬ components (ofBytes root) <+: components (ofBytes beside) := by decide +kernel
  exact ⟨hroot, hbeside, hodd,
    (components_join_display hroot.1 hroot.2.1 hroot.2.2.1 hroot.2.2.2).1,
    (components_join_display hroot.1 hbeside.1 hbeside.2.1 hbeside.2.2).2.2.2.1 hcut,
    (components_join_display hodd.1 hodd.2.1 hodd.2.2.1 hodd.2.2.2).1⟩

/-- Without the condition on the bytes: what is shown leads back to the path, and paths with other
components are shown otherwise. -/
def ShownLeadsBack : Prop :=
  ∀ root path : ByteArray, isAbsolute (ofBytes root) = true → isAbsolute (ofBytes path) = true →
    Lacks '\\' (ofBytes path) →
    components (join (ofBytes root) (ofBytes (displayBytes path (some root)).toUTF8)) =
      components (ofBytes path) ∧
      ∀ other, isAbsolute (ofBytes other) = true → Lacks '\\' (ofBytes other) →
        components (ofBytes other) ≠ components (ofBytes path) →
        displayBytes other (some root) ≠ displayBytes path (some root)

/-- Two names that differ in a byte that is not UTF-8 are shown with the same replacement
character. -/
theorem not_shownLeadsBack : ¬ ShownLeadsBack := by
  let path : ByteArray := "/w/".toUTF8.push 0xff ++ ".sh".toUTF8
  let other : ByteArray := "/w/".toUTF8.push 0xfe ++ ".sh".toUTF8
  have halike : displayBytes path (some "/w".toUTF8) = "\uFFFD.sh" ∧
      displayBytes other (some "/w".toUTF8) = "\uFFFD.sh" := by
    decide +kernel
  have hother : components (ofBytes other) ≠ components (ofBytes path) := by decide +kernel
  intro h
  obtain ⟨-, hshown⟩ :=
    h "/w".toUTF8 path (by decide +kernel) (by decide +kernel) (by decide +kernel)
  exact hshown other (by decide +kernel) (by decide +kernel) hother (halike.2.trans halike.1.symm)

end ScriptLint.Path
