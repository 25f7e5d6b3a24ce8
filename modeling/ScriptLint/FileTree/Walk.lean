import ScriptLint.FileTree.Resolve

/-!
Walking a directory: the files in it, also below it if asked for, by their paths. Links are
followed, but not to a directory that the walk is inside of, and links that lead nowhere are left
out. So is what lies in a directory whose path is too long.
-/

namespace ScriptLint.FileTree

/-- How many directories are not among the given ones. -/
def countOutside (t : FileTree) (inside : List Location) : Nat :=
  (t.directories.filter fun l => !inside.contains l).length

theorem countOutside_cons_le (t : FileTree) (inside : List Location) (l : Location) :
    t.countOutside (l :: inside) ≤ t.countOutside inside := by
  unfold countOutside
  rw [← List.countP_eq_length_filter, ← List.countP_eq_length_filter]
  apply List.countP_mono_left
  intro x _ h
  simp only [List.contains_cons, Bool.not_eq_true', Bool.or_eq_false_iff] at h
  simpa using h.2

theorem countOutside_cons_lt {t : FileTree} {inside : List Location} {l : Location}
    (hl : t.get? l = some .directory) (h : inside.contains l = false) :
    t.countOutside (l :: inside) < t.countOutside inside := by
  have hm := mem_directories hl
  unfold countOutside
  rw [← List.countP_eq_length_filter, ← List.countP_eq_length_filter]
  obtain ⟨before, after, e⟩ := List.append_of_mem hm
  have mono (ls : List Location) :
      ls.countP (fun x => !(l :: inside).contains x) ≤ ls.countP fun x => !inside.contains x := by
    apply List.countP_mono_left
    intro x _ hx
    simp only [List.contains_cons, Bool.not_eq_true', Bool.or_eq_false_iff] at hx
    simpa using hx.2
  have hb := mono before
  have ha := mono after
  rw [e]
  simp only [List.countP_append, List.countP_cons, List.contains_cons, BEq.rfl, Bool.true_or,
    Bool.not_true, Bool.false_eq_true, if_false, h, Bool.not_false, if_true] at hb ha ⊢
  omega

/-- The paths of the files in the directory at `here`, whose path is `path`. The walk is inside of
the directories in `inside`. -/
def walk (t : FileTree) (recursive : Bool) (inside : List Location) (here : Location)
    (path : String) :
    List String :=
  (t.names here).flatMap fun name =>
    let shown := Path.join path (String.ofList name)
    match hn : t.get? (here ++ [name]) with
    | some (.file ..) => [shown]
    | some .directory =>
      have := length_le_depth hn
      if recursive && !isTooLong shown then
        t.walk recursive ((here ++ [name]) :: inside) (here ++ [name]) shown
      else []
    | some (.link _) =>
      match t.locate [] shown with
      | .ok l =>
        match hl : t.get? l with
        | some (.file ..) => [shown]
        | some .directory =>
          if h : inside.contains l then []
          else
            have := countOutside_cons_lt hl (eq_false_of_ne_true h)
            if recursive then t.walk recursive (l :: inside) l shown else []
        | _ => []
      | .error _ => []
    | none => []
termination_by (t.countOutside inside, t.depth - here.length)
decreasing_by
  · have hle := countOutside_cons_le t inside (here ++ [name])
    simp only [List.length_append, List.length_singleton] at this ⊢
    rcases Nat.lt_or_eq_of_le hle with h | h
    · exact .left _ _ h
    · rw [h]
      exact .right _ (by omega)
  · exact .left _ _ this

def filesIn (t : FileTree) (recursive : Bool) (l : Location) : List String :=
  t.walk recursive [l] l l.toPath

end ScriptLint.FileTree
