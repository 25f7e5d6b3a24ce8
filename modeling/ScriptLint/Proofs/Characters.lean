import ScriptLint.Proofs.PathBytes
import ScriptLint.Report.Text

/-!
Characters that do not occur in a text. Main statement: `lacks_display`, the shown form of a path
has no characters of its own but slashes and dots.
-/

namespace ScriptLint

/-- The character does not occur in the text. -/
def Lacks (c : Char) (text : String) : Prop :=
  c ∉ text.toList

instance (c : Char) (text : String) : Decidable (Lacks c text) :=
  inferInstanceAs (Decidable (c ∉ text.toList))

section Texts

variable {c : Char} {a b text : String} {texts : List String}

theorem Lacks.append (ha : Lacks c a) (hb : Lacks c b) : Lacks c (a ++ b) := by
  rw [Lacks, String.toList_append, List.mem_append, not_or]
  exact ⟨ha, hb⟩

@[simp] theorem lacks_ofList {cs : List Char} : Lacks c (String.ofList cs) ↔ c ∉ cs := by
  rw [Lacks, String.toList_ofList]

theorem lacks_join (h : ∀ text ∈ texts, Lacks c text) : Lacks c (String.join texts) := by
  rw [Lacks, String.toList_join]
  intro hc
  obtain ⟨text, ht, hc⟩ := List.mem_flatMap.mp hc
  exact h text ht hc

theorem lacks_intercalate (hb : Lacks c b) (h : ∀ text ∈ texts, Lacks c text) :
    Lacks c (String.intercalate b texts) := by
  induction texts with
  | nil => exact List.not_mem_nil
  | cons first texts ih =>
    have ih := ih fun text ht => h text (List.mem_cons_of_mem first ht)
    have hfirst := h first List.mem_cons_self
    cases texts with
    | nil => rwa [String.intercalate_singleton]
    | cons second texts =>
      rw [String.intercalate_cons_cons]
      exact (hfirst.append hb).append ih

theorem lacks_decimalText (hc : c.isDigit = false) (n : Nat) : Lacks c (decimalText n) := by
  rw [decimalText, lacks_ofList]
  intro h
  rw [isDigit_of_mem_decimal h] at hc
  cases hc

end Texts

namespace Path

variable {c : Char} {p base : Parts} {s seg : List Char} {segs : List (List Char)}

theorem mem_of_mem_trimFillers (h : seg ∈ trimFillers segs) : seg ∈ segs := by
  have h := (List.dropWhile_sublist isFiller).subset (List.mem_reverse.mp h)
  exact List.mem_reverse.mp h

theorem mem_of_mem_dropComponents {n : Nat} (h : seg ∈ dropComponents n segs) : seg ∈ segs := by
  fun_induction dropComponents n segs with
  | case1 => exact h
  | case2 => cases h
  | case3 n first segs hf ih => exact List.mem_cons_of_mem first (ih h)
  | case4 n first segs hf ih => exact List.mem_cons_of_mem first (ih h)

/-- The parts of a text have no characters of their own. -/
theorem mem_of_mem_ofText (s : List Char) : ∀ seg ∈ (Parts.ofText s).body, ∀ c ∈ seg, c ∈ s := by
  fun_cases Parts.ofText s with
  | case1 => exact fun _ hseg => (List.not_mem_nil hseg).elim
  | case2 s =>
    exact fun seg hseg c hc => List.mem_cons_of_mem '/' (mem_of_mem_splitSlash seg hseg c hc)
  | case3 s body _ _ hs =>
    exact fun seg hseg => mem_of_mem_splitSlash seg (hs ▸ List.mem_cons_of_mem _ hseg)
  | case4 => exact mem_of_mem_splitSlash

theorem eq_of_component? {name : List Char} (h : component? seg = some (.name name)) :
    name = seg := by
  unfold component? at h
  split at h
  · cases h
  split at h
  · cases h
  · cases h
    rfl

/-- The characters of a file name are in the path. -/
theorem mem_of_fileName? {path : String} {name : List Char} (h : fileName? path = some name) :
    ∀ c ∈ name, c ∈ path.toList := by
  unfold fileName? at h
  split at h
  · next hlast =>
    cases h
    rcases List.mem_append.mp (List.mem_of_getLast? hlast) with hlead | hbody
    · cases hp : (Parts.ofText path.toList).lead <;> simp [hp, Lead.components] at hlead
    · obtain ⟨seg, hseg, hname⟩ := List.mem_filterMap.mp hbody
      rw [eq_of_component? hname]
      exact mem_of_mem_ofText path.toList seg hseg
  · cases h

theorem not_mem_joinSlash (hslash : c ≠ '/') (h : ∀ seg ∈ segs, c ∉ seg) : c ∉ joinSlash segs := by
  intro hc
  rcases mem_joinSlash hc with he | ⟨seg, hseg, hc⟩
  · exact hslash he
  · exact h seg hseg hc

theorem not_mem_toText (hslash : c ≠ '/') (hdot : c ≠ '.') (h : ∀ seg ∈ p.body, c ∉ seg) :
    c ∉ p.toText := by
  have hbody := not_mem_joinSlash hslash h
  fun_cases Parts.toText p with
  | case1 => exact List.not_mem_cons_of_ne_of_not_mem hslash hbody
  | case2 => simpa using hdot
  | case3 => simp [hdot, hslash, hbody]
  | case4 => exact hbody

/-- What is left of a path below another one has no characters of its own but slashes and dots. -/
theorem not_mem_below? (hslash : c ≠ '/') (hdot : c ≠ '.') (h : ∀ seg ∈ p.body, c ∉ seg) :
    ∀ text, p.below? base = some text → c ∉ text := by
  fun_cases Parts.below? p base with
  | case1 => nofun
  | case2 =>
    rintro text ⟨⟩
    exact not_mem_toText hslash hdot fun seg hseg => h seg (mem_of_mem_trimFillers hseg)
  | case3 =>
    rintro text ⟨⟩
    refine not_mem_joinSlash hslash fun seg hseg => h seg ?_
    have hseg := (List.dropWhile_sublist isFiller).subset (mem_of_mem_trimFillers hseg)
    exact mem_of_mem_dropComponents hseg

theorem lacks_normalizeSeparators {text : String} (hc : c ≠ '/') (h : Lacks c text) :
    Lacks c (normalizeSeparators text) := by
  rw [normalizeSeparators, lacks_ofList]
  intro hm
  obtain ⟨c', hc', he⟩ := List.mem_map.mp hm
  split at he
  · exact hc he.symm
  · exact h (he ▸ hc')

/-- What is left of a path has no characters of its own but slashes and dots, whatever the root
is. -/
theorem not_mem_belowRoot {path : String} (hslash : c ≠ '/') (hdot : c ≠ '.') (h : Lacks c path)
    (root : Option String) : c ∉ belowRoot path root := by
  have hparts : ∀ seg ∈ (Parts.ofText path.toList).body, c ∉ seg :=
    fun seg hseg hc => h (mem_of_mem_ofText path.toList seg hseg c hc)
  unfold belowRoot
  cases hbelow : root.bind fun r => (Parts.ofText path.toList).below? (Parts.ofText r.toList) with
  | none => exact h
  | some text =>
    obtain ⟨base, _, hbelow⟩ := Option.bind_eq_some_iff.mp hbelow
    exact not_mem_below? hslash hdot hparts text hbelow

/-- The shown form of a path has no characters of its own but slashes and dots, whatever the root
is. -/
theorem lacks_display {path : String} (hslash : c ≠ '/') (hdot : c ≠ '.') (h : Lacks c path)
    (root : Option String) : Lacks c (display path root) := by
  rw [display_eq]
  simp only
  split
  · simpa [Lacks] using hdot
  · exact lacks_normalizeSeparators hslash (lacks_ofList.mpr (not_mem_belowRoot hslash hdot h root))

end Path

namespace Report

variable {c : Char}

theorem lacks_path {path : String} (hslash : c ≠ '/') (hdot : c ≠ '.') (h : Lacks c path)
    (style : ReportStyle) :
    Lacks c (style.path path) :=
  Path.lacks_display hslash hdot h style.root

theorem lacks_location (hdigit : c.isDigit = false) (hword : Lacks c " line ")
    (hcolon : Lacks c ":") (line : Option Nat) : Lacks c (location line) := by
  cases line with
  | none => exact List.not_mem_nil
  | some n => exact .append (.append hword (lacks_decimalText hdigit n)) hcolon

end Report

end ScriptLint
