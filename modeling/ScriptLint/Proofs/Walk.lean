import ScriptLint.FileTree.Walk
import ScriptLint.Proofs.Resolution

/-!
What a walk shows. Main statements: `mem_walk_iff`, a walk shows what its entries show, and
`walk_induction`, the induction over the directories that a walk enters.
-/

namespace ScriptLint.FileTree

/-- A walk inside of some directories enters a directory through an entry, whose path is `shown`. -/
inductive Enters (t : FileTree) (inside : List Location) (entry : Location) (shown : String) :
    Location → Prop
  | directory (he : t.get? entry = some .directory) (hs : isTooLong shown = false) :
      Enters t inside entry shown entry
  | link {target : String} {l : Location} (he : t.get? entry = some (.link target))
      (hl : t.locate [] shown = .ok l) (hg : t.get? l = some .directory)
        (hi : ¬ inside.contains l = true) :
      Enters t inside entry shown l

/-- What a walk inside of some directories shows for an entry, whose path is `shown`. -/
inductive Shows (t : FileTree) (recursive : Bool) (inside : List Location) (entry : Location)
    (shown : String) : String → Prop
  | file {bytes : ByteArray} {mode : Nat} (he : t.get? entry = some (.file bytes mode)) :
      Shows t recursive inside entry shown shown
  | linkedFile {target : String} {l : Location} {bytes : ByteArray} {mode : Nat}
      (he : t.get? entry = some (.link target)) (hl : t.locate [] shown = .ok l)
      (hg : t.get? l = some (.file bytes mode)) : Shows t recursive inside entry shown shown
  | below {l : Location} {p : String} (h : t.Enters inside entry shown l) (hr : recursive = true)
      (hp : p ∈ t.walk recursive (l :: inside) l shown) : Shows t recursive inside entry shown p

/-- The names of a way lead from the root to the file at a location. -/
structure FileAt (t : FileTree) (way k : Location) : Prop where
  isName : ∀ name ∈ way, IsName name
  follow : t.follow maxLinks [] way = .ok (.taken k)
  file : ∃ bytes mode, t.get? k = some (.file bytes mode)

variable {t : FileTree} {recursive : Bool} {inside : List Location} {here : Location}
  {p path : String}

/-- A walk shows what it shows for one of the names in its directory. -/
theorem mem_walk_iff :
    p ∈ t.walk recursive inside here path ↔
      ∃ name ∈ t.names here,
        t.Shows recursive inside (here ++ [name]) (Path.join path (String.ofList name)) p := by
  rw [walk, List.mem_flatMap]
  refine exists_congr fun name => and_congr_right fun _ => ?_
  simp only
  constructor
  · intro hp
    split at hp
    · next he =>
      cases List.mem_singleton.mp hp
      exact .file he
    · next he =>
      split at hp
      · next hc =>
        rw [Bool.and_eq_true_iff, Bool.not_eq_true'] at hc
        exact .below (.directory he hc.2) hc.1 hp
      · cases hp
    · next he =>
      split at hp
      · next l hl =>
        split at hp
        · next hg =>
          cases List.mem_singleton.mp hp
          exact .linkedFile he hl hg
        · next hg =>
          split at hp
          · cases hp
          · next hi =>
            split at hp
            · next hr => exact .below (.link he hl hg hi) hr hp
            · cases hp
        · cases hp
      · cases hp
    · cases hp
  · intro h
    cases h with
    | file he =>
      split
      · exact List.mem_singleton_self _
      all_goals simp_all
    | linkedFile he hl hg =>
      split
      · simp_all
      · simp_all
      · rw [hl]
        simp only
        split
        · exact List.mem_singleton_self _
        all_goals simp_all
      · simp_all
    | below h hr hp =>
      cases h with
      | directory he hs =>
        split
        · simp_all
        · rwa [if_pos (by simp [hr, hs])]
        all_goals simp_all
      | link he hl hg hi =>
        split
        · simp_all
        · simp_all
        · rw [hl]
          simp only
          split
          · simp_all
          · rwa [dif_neg hi, if_pos hr]
          · simp_all
        · simp_all

/-- What holds of a walk if it holds of the walks in the directories that it enters holds of every
walk. -/
@[elab_as_elim]
theorem walk_induction {motive : List Location → Location → String → Prop} (t : FileTree)
    (step : ∀ inside here path,
      (∀ name l, t.Enters inside (here ++ [name]) (Path.join path (String.ofList name)) l →
        motive (l :: inside) l (Path.join path (String.ofList name))) → motive inside here path)
    (inside : List Location) (here : Location) (path : String) : motive inside here path := by
  induction inside, here, path using FileTree.walk.induct t with
  | case1 inside here path ihDirectory ihLink =>
    refine step inside here path fun name l h => ?_
    cases h with
    | directory he _ => exact ihDirectory name he
    | link _ _ hg hi => exact ihLink name l hg hi

end ScriptLint.FileTree
