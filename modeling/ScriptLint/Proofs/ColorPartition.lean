import ScriptLint.Proofs.WrongColors

/-!
The groups of color definitions as a partition. Adding a definition lets an old group grow at its
end, or begins a new last group. Main statements: `firstNumbers_add`, the step, `ascending_ofLines`,
the groups come in the order of their first definitions, and `partition_ofLines`.
-/

namespace ScriptLint.ColorDefinitions

/-- The numbers of the lines with which the groups begin. -/
def firstNumbers (groups : ColorDefinitions) : List Nat :=
  groups.filterMap fun group => group.2.head?.map (·.number)

/-- The groups divide the definitions of the palette's colors among the lines. -/
structure Partition (palette : Palette) (ls : List Line) (groups : ColorDefinitions) : Prop where
  /-- A color has one group. -/
  nodup : (groups.map Prod.fst).Nodup
  /-- It has one exactly if it is in the palette and a line defines it. -/
  key_iff : ∀ name, name ∈ groups.map Prod.fst ↔
    (∃ color ∈ palette.entries, name = color.1) ∧ ∃ line ∈ ls, Defines line name
  nonempty : ∀ group ∈ groups, group.2 ≠ []
  /-- The groups come in the order of their first definitions. -/
  ascending : (firstNumbers groups).Pairwise (· < ·)
  /-- A group holds each line that assigns to its color, with the number of the line counted from
  one. -/
  mem_iff : ∀ name ds, (name, ds) ∈ groups → ∀ d, d ∈ ds ↔
    1 ≤ d.number ∧ ls[d.number - 1]? = some d.line ∧ Shell.Assigns d.line ⟨name.toList, d.readonly⟩
  readonly_iff : ∀ name ds, (name, ds) ∈ groups → ∀ d ∈ ds,
    (d.readonly = true ↔ Shell.Assigns d.line ⟨name.toList, true⟩)
  sorted : ∀ group ∈ groups, group.2.Pairwise (·.number < ·.number)
  /-- A line is in one group, and there once. -/
  once : ∀ name ds name' ds', (name, ds) ∈ groups → (name', ds') ∈ groups → ∀ d ∈ ds, ∀ d' ∈ ds',
    d.number = d'.number → name = name' ∧ d = d'

variable {palette : Palette} {groups : ColorDefinitions} {name : String} {d : ColorDefinition}
  {ls : List (Nat × Line)} {ds : List ColorDefinition}

/-! ## What a line changes -/

theorem nonempty_add (h : ∀ group ∈ groups, group.2 ≠ []) :
    ∀ group ∈ groups.add name d, group.2 ≠ [] := by
  intro group hm
  rcases Keyed.mem_alter hm with hm | ⟨old, -, rfl⟩ | rfl
  · exact h group hm
  · exact List.append_ne_nil_of_right_ne_nil _ (List.cons_ne_nil d [])
  · exact List.cons_ne_nil d []

/-- The step: a group keeps its first definition, and a new one begins behind all others. -/
theorem firstNumbers_add (h : ∀ group ∈ groups, group.2 ≠ []) :
    firstNumbers (groups.add name d) = firstNumbers groups ∨
      firstNumbers (groups.add name d) = firstNumbers groups ++ [d.number] := by
  induction groups with
  | nil => exact .inr rfl
  | cons group groups ih =>
    obtain ⟨key, ds⟩ := group
    obtain ⟨first, others, rfl⟩ := List.exists_cons_of_ne_nil (h (key, ds) List.mem_cons_self)
    by_cases hkey : key = name
    · left
      simp [add, Keyed.alter, hkey, firstNumbers]
    · -- the change happens behind the group of another color
      have hadd : add name d ((key, first :: others) :: groups) =
          (key, first :: others) :: add name d groups := by
        simp [add, Keyed.alter, hkey]
      have hcons (rest : ColorDefinitions) :
          firstNumbers ((key, first :: others) :: rest) = first.number :: firstNumbers rest := rfl
      rw [hadd, hcons, hcons]
      rcases ih fun group hm => h group (List.mem_cons_of_mem _ hm) with hold | hnew
      · exact .inl (by rw [hold])
      · exact .inr (by rw [hnew, List.cons_append])

/-- Each group has a definition, and the groups come in the order of the first ones. -/
structure Ordered (groups : ColorDefinitions) : Prop where
  nonempty : ∀ group ∈ groups, group.2 ≠ []
  ascending : (firstNumbers groups).Pairwise (· < ·)

/-- All groups begin before a line. -/
def Before (groups : ColorDefinitions) (n : Nat) : Prop :=
  ∀ m ∈ firstNumbers groups, m < n

theorem Ordered.add (h : Ordered groups) (hbefore : Before groups d.number) :
    Ordered (groups.add name d) where
  nonempty := nonempty_add h.nonempty
  ascending := by
    rcases firstNumbers_add h.nonempty with hold | hnew
    · rw [hold]
      exact h.ascending
    · rw [hnew, List.pairwise_append]
      refine ⟨h.ascending, List.pairwise_singleton _ _, fun m hm n hn => ?_⟩
      rw [List.mem_singleton.mp hn]
      exact hbefore m hm

theorem Before.add {n : Nat} (h : Ordered groups) (hbefore : Before groups n) (hd : d.number < n) :
    Before (groups.add name d) n := by
  intro m hm
  rcases firstNumbers_add h.nonempty with hold | hnew
  · exact hbefore m (hold ▸ hm)
  · rcases List.mem_append.mp (hnew ▸ hm) with hm | hm
    · exact hbefore m hm
    · rwa [List.mem_singleton.mp hm]

theorem Ordered.addLine {numbered : Nat × Line} (palette : Palette) (h : Ordered groups)
    (hbefore : Before groups numbered.1) :
    Ordered (addLine palette groups numbered) ∧
      ∀ n, numbered.1 < n → Before groups n →
        Before (ColorDefinitions.addLine palette groups numbered) n := by
  unfold ColorDefinitions.addLine
  split
  · exact ⟨h.add hbefore, fun n hn hold => hold.add h hn⟩
  · exact ⟨h, fun n _ hold => hold⟩

/-- The run: lines that come later begin later groups. -/
theorem Ordered.foldl_addLine (palette : Palette) (h : Ordered groups)
    (hls : ls.Pairwise (·.1 < ·.1)) (hbefore : ∀ numbered ∈ ls, Before groups numbered.1) :
    Ordered (ls.foldl (ColorDefinitions.addLine palette) groups) := by
  induction ls generalizing groups with
  | nil => exact h
  | cons numbered ls ih =>
    obtain ⟨hlater, hls⟩ := List.pairwise_cons.mp hls
    obtain ⟨hnext, hkeeps⟩ := h.addLine palette (hbefore numbered List.mem_cons_self)
    refine ih hnext hls fun other hm => ?_
    exact hkeeps other.1 (hlater other hm) (hbefore other (List.mem_cons_of_mem numbered hm))

theorem ordered_ofLines (palette : Palette) (hls : ls.Pairwise (·.1 < ·.1)) :
    Ordered (ofLines palette ls) :=
  Ordered.foldl_addLine palette ⟨by simp, List.Pairwise.nil⟩ hls fun _ _ m hm => by cases hm

theorem nodup_ofLines (palette : Palette) (ls : List (Nat × Line)) :
    ((ofLines palette ls).map Prod.fst).Nodup := by
  unfold ofLines
  apply List.foldlRecOn (motive := fun groups : ColorDefinitions => (groups.map Prod.fst).Nodup)
  · exact List.nodup_nil
  · intro groups h numbered _
    unfold addLine
    split
    · exact Keyed.nodup_alter h
    · exact h

/-! ## What a group holds -/

theorem eq_filterMap_of_mem (h : (name, ds) ∈ ofLines palette ls) :
    ds = ls.filterMap (definition? palette name) := by
  rw [← getD_lookup_ofLines, Keyed.lookup_eq_some_of_mem (nodup_ofLines palette ls) h,
    Option.getD_some]

/-- There is a group exactly where there is a definition. -/
theorem mem_keys_ofLines_iff (hls : ls.Pairwise (·.1 < ·.1)) :
    name ∈ (ofLines palette ls).map Prod.fst ↔
      ∃ d, d ∈ ls.filterMap (definition? palette name) := by
  constructor
  · intro h
    obtain ⟨⟨name, ds⟩, hgroup, rfl⟩ := List.mem_map.mp h
    rw [← eq_filterMap_of_mem hgroup]
    exact List.exists_mem_of_ne_nil ds ((ordered_ofLines palette hls).nonempty _ hgroup)
  · rintro ⟨d, hd⟩
    rw [← getD_lookup_ofLines] at hd
    cases hlookup : (ofLines palette ls).lookup name with
    | none => simp [hlookup] at hd
    | some ds => exact List.mem_map_of_mem (Keyed.mem_of_lookup_eq_some hlookup)

variable {lines : List Line}

theorem mem_definitions_iff : d ∈ (numbered lines).filterMap (definition? palette name) ↔
    (palette.lookup name).isSome ∧ 1 ≤ d.number ∧ lines[d.number - 1]? = some d.line ∧
      Shell.Assigns d.line ⟨name.toList, d.readonly⟩ := by
  simp only [List.mem_filterMap, definition?_eq_some_iff, colorAssignment?_eq_some_iff]
  constructor
  · rintro ⟨_, hm, rfl, hassigns, hknown⟩
    obtain ⟨hnumber, hline⟩ := mem_numbered_iff.mp hm
    exact ⟨hknown, hnumber, hline, hassigns⟩
  · rintro ⟨hknown, hnumber, hline, hassigns⟩
    exact ⟨_, mem_numbered_iff.mpr ⟨hnumber, hline⟩, rfl, hassigns, hknown⟩

theorem exists_mem_definitions_iff :
    (∃ d, d ∈ (numbered lines).filterMap (definition? palette name)) ↔
    (∃ color ∈ palette.entries, name = color.1) ∧ ∃ line ∈ lines, Defines line name := by
  simp only [mem_definitions_iff, Palette.isSome_lookup_iff]
  constructor
  · rintro ⟨d, hknown, -, hline, hassigns⟩
    exact ⟨hknown, d.line, List.mem_of_getElem? hline, d.readonly, hassigns⟩
  · rintro ⟨hknown, line, hline, readonly, hassigns⟩
    obtain ⟨i, hi⟩ := List.getElem?_of_mem hline
    exact ⟨⟨i + 1, line, readonly⟩, hknown, by simp, by simpa using hi, hassigns⟩

/-- A line of a group is a definition of the group's color. -/
theorem mem_group_iff (h : (name, ds) ∈ ofLines palette (numbered lines)) (d : ColorDefinition) :
    d ∈ ds ↔ 1 ≤ d.number ∧ lines[d.number - 1]? = some d.line ∧
      Shell.Assigns d.line ⟨name.toList, d.readonly⟩ := by
  have hkey := (mem_keys_ofLines_iff (pairwise_fst_numbered lines)).mp (List.mem_map_of_mem h)
  obtain ⟨_, hfirst⟩ := hkey
  rw [eq_filterMap_of_mem h, mem_definitions_iff, and_iff_right (mem_definitions_iff.mp hfirst).1]

/-- Definitions of one line are one definition: the line is read in one way. -/
theorem eq_of_number_eq {name' : String} {ds' : List ColorDefinition} {d' : ColorDefinition}
    (h : (name, ds) ∈ ofLines palette (numbered lines))
    (h' : (name', ds') ∈ ofLines palette (numbered lines))
    (hd : d ∈ ds) (hd' : d' ∈ ds') (hnumber : d.number = d'.number) : name = name' ∧ d = d' := by
  obtain ⟨-, hline, hassigns⟩ := (mem_group_iff h d).mp hd
  obtain ⟨-, hline', hassigns'⟩ := (mem_group_iff h' d').mp hd'
  obtain ⟨n, line, readonly⟩ := d
  obtain ⟨n', line', readonly'⟩ := d'
  simp only at hnumber hline hline' hassigns hassigns'
  subst hnumber
  cases hline.symm.trans hline'
  have hread := hassigns.unique hassigns'
  simp only [Shell.Assignment.mk.injEq, String.toList_inj] at hread
  exact ⟨hread.1, by rw [hread.2]⟩

theorem readonly_iff (h : (name, ds) ∈ ofLines palette (numbered lines)) (hd : d ∈ ds) :
    d.readonly = true ↔ Shell.Assigns d.line ⟨name.toList, true⟩ := by
  obtain ⟨-, -, hassigns⟩ := (mem_group_iff h d).mp hd
  constructor
  · intro hreadonly
    rwa [hreadonly] at hassigns
  · intro hreadonly
    exact congrArg Shell.Assignment.readonly (hassigns.unique hreadonly)

/-- The color definitions among lines are a partition: each line that defines a color of the palette
is in one group, the one of its color. So where the check of the palette finds a group, it finds a
first definition. -/
theorem partition_ofLines (palette : Palette) (ls : List Line) :
    Partition palette ls (ofLines palette (numbered ls)) ∧
      ∀ name, (ofLines palette (numbered ls)).lookup name ≠ some [] := by
  have hordered := ordered_ofLines palette (pairwise_fst_numbered ls)
  constructor
  · exact {
      nodup := nodup_ofLines palette (numbered ls)
      key_iff := fun name =>
        (mem_keys_ofLines_iff (pairwise_fst_numbered ls)).trans exists_mem_definitions_iff
      nonempty := hordered.nonempty
      ascending := hordered.ascending
      mem_iff := fun name ds hgroup => mem_group_iff hgroup
      readonly_iff := fun name ds hgroup d hd => readonly_iff hgroup hd
      sorted := fun (name, ds) hgroup =>
        eq_filterMap_of_mem hgroup ▸ pairwise_definitions palette ls name
      once := fun name ds name' ds' hgroup hgroup' d hd d' hd' =>
        eq_of_number_eq hgroup hgroup' hd hd' }
  · intro name hlookup
    exact hordered.nonempty (name, []) (Keyed.mem_of_lookup_eq_some hlookup) rfl

/-- The group of `RED` begins first and is added to after that of `BLUE` has begun. -/
example : ofLines .standard
  (numbered ["RED=1".toList, "ls".toList, "readonly BLUE=2".toList, " readonly RED=".toList]) =
    [("RED", [⟨1, "RED=1".toList, false⟩, ⟨4, " readonly RED=".toList, true⟩]),
      ("BLUE", [⟨3, "readonly BLUE=2".toList, true⟩])] := by
  decide +kernel

end ScriptLint.ColorDefinitions
