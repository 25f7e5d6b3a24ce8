import ScriptLint.Check.Colors

/-!
The groups of color definitions. Main statement: `drawn_ofLines`, every definition in a group is
made by one of the lines that were read, and this line assigns to the color of the group.
-/

namespace ScriptLint.ColorDefinitions

/-- The definitions of each group are made by lines among those that were read. -/
def Drawn (palette : Palette) (ls : List (Nat × Line)) (groups : ColorDefinitions) : Prop :=
  ∀ name ds, (name, ds) ∈ groups → ∀ d ∈ ds,
    (d.number, d.line) ∈ ls ∧ colorAssignment? palette d.line = some (name, d.readonly)

variable {palette : Palette} {ls : List (Nat × Line)} {groups : ColorDefinitions}

theorem drawn_add {name : String} {d : ColorDefinition} (h : Drawn palette ls groups)
    (hd : (d.number, d.line) ∈ ls ∧ colorAssignment? palette d.line = some (name, d.readonly)) :
    Drawn palette ls (groups.add name d) := by
  intro name' ds hm d' hd'
  rcases Keyed.mem_alter hm with hm | ⟨old, hold, he⟩ | he
  · exact h name' ds hm d' hd'
  · cases he
    rcases List.mem_append.mp hd' with hd' | hd'
    · exact h name old hold d' hd'
    · cases List.mem_singleton.mp hd'
      exact hd
  · cases he
    cases List.mem_singleton.mp hd'
    exact hd

theorem drawn_addLine {numbered : Nat × Line} (h : Drawn palette ls groups) (hm : numbered ∈ ls) :
    Drawn palette ls (addLine palette groups numbered) := by
  unfold addLine
  split
  · next name readonly hassigns => exact drawn_add h ⟨hm, hassigns⟩
  · exact h

theorem drawn_foldl_addLine {more : List (Nat × Line)} (h : Drawn palette ls groups)
    (hmore : ∀ numbered ∈ more, numbered ∈ ls) :
    Drawn palette ls (more.foldl (addLine palette) groups) := by
  induction more generalizing groups with
  | nil => exact h
  | cons numbered more ih =>
    exact ih (drawn_addLine h (hmore numbered List.mem_cons_self)) fun other hm =>
      hmore other (List.mem_cons_of_mem numbered hm)

theorem drawn_ofLines (palette : Palette) (ls : List (Nat × Line)) :
    Drawn palette ls (ofLines palette ls) :=
  drawn_foldl_addLine (fun _ _ hm => by cases hm) fun _ hm => hm

end ScriptLint.ColorDefinitions
