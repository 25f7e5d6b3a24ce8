import ScriptLint.Keyed
import ScriptLint.Path

/-!
File trees: files, directories and symbolic links by their location. The root directory is always
there. Names are texts, and permission bits stop nobody from reading or writing an entry. Main
statement: `get?_set`, what is found after an entry has been set.
-/

namespace ScriptLint

/-- The names on the way from the root directory to an entry. -/
abbrev Location := List (List Char)

def Location.toPath (l : Location) : String :=
  String.ofList ('/' :: Path.joinSlash l)

inductive Entry where
  /-- A file with its bytes and its permission bits. -/
  | file (bytes : ByteArray) (mode : Nat)
  | directory
  /-- A symbolic link with the path that it stands for. -/
  | link (target : String)

namespace Entry

/-- Entries differ if their kinds, their bytes or permission bits, or their targets do. -/
def decEq : (a b : Entry) → Decidable (a = b)
  | file x m, file y n =>
    decidable_of_iff (x.data = y.data ∧ m = n) (by simp [ByteArray.ext_iff])
  | directory, directory => isTrue rfl
  | link x, link y => decidable_of_iff (x = y) (by simp)
  | file .., directory | file .., link _ | directory, file .. | directory, link _
  | link _, file .. | link _, directory => isFalse nofun

instance : DecidableEq Entry := decEq

end Entry

structure FileTree where
  entries : List (Location × Entry) := []
  deriving DecidableEq

namespace FileTree

def get? (t : FileTree) (l : Location) : Option Entry :=
  if l = [] then some .directory else t.entries.lookup l

def set (t : FileTree) (l : Location) (e : Entry) : FileTree :=
  ⟨Keyed.put l e t.entries⟩

def remove (t : FileTree) (l : Location) : FileTree :=
  ⟨t.entries.filter fun entry => !l.isPrefixOf entry.1⟩

def names (t : FileTree) (l : Location) : List (List Char) :=
  t.entries.filterMap fun entry =>
    if entry.1.dropLast = l then entry.1.getLast? else none

def directories (t : FileTree) : List Location :=
  [] :: t.entries.filterMap fun entry => if entry.2 = .directory then some entry.1 else none

/-- The length of the longest location. -/
def depth (t : FileTree) : Nat :=
  t.entries.foldl (fun n entry => max n entry.1.length) 0

@[simp] theorem get?_nil (t : FileTree) : t.get? [] = some .directory := rfl

/-- Setting an entry changes its own location and no other one. -/
theorem get?_set {t : FileTree} {l k : Location} {e : Entry} (h : l ≠ []) :
    (t.set l e).get? k = if k = l then some e else t.get? k := by
  by_cases hk : k = []
  · subst hk
    simp [get?, Ne.symm h]
  · simp [get?, set, hk, Keyed.lookup_put]

theorem mem_directories {t : FileTree} {l : Location} (h : t.get? l = some .directory) :
    l ∈ t.directories := by
  by_cases hl : l = []
  · simp [directories, hl]
  · simp only [get?, hl, if_false] at h
    have hm := Keyed.mem_of_lookup_eq_some h
    simp only [directories, List.mem_cons, List.mem_filterMap]
    exact .inr ⟨_, hm, by simp⟩

theorem length_le_foldl_max (l : Location) (es : List (Location × Entry)) (n : Nat) :
    n ≤ es.foldl (fun n entry => max n entry.1.length) n ∧
      (l ∈ es.map Prod.fst → l.length ≤ es.foldl (fun n entry => max n entry.1.length) n) := by
  induction es generalizing n with
  | nil => simp
  | cons entry es ih =>
    have hle := (ih (max n entry.1.length)).1
    simp only [List.foldl_cons, List.map_cons, List.mem_cons]
    refine ⟨by omega, ?_⟩
    rintro (h | h)
    · subst h
      omega
    · exact (ih _).2 h

theorem length_le_depth {t : FileTree} {l : Location} {e : Entry} (h : t.get? l = some e) :
    l.length ≤ t.depth := by
  by_cases hl : l = []
  · simp [hl]
  · simp only [get?, hl, if_false] at h
    exact (length_le_foldl_max l t.entries 0).2
      (List.mem_map.mpr ⟨_, Keyed.mem_of_lookup_eq_some h, rfl⟩)

end FileTree

end ScriptLint
