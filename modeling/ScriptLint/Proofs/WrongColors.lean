import ScriptLint.Proofs.FindingLines
import ScriptLint.Proofs.LineGrammar

/-!
Wrong color codes. The definitions of the colors are gathered in groups, line by line; the check
reads the groups in the order of the palette. Main statements: `getD_lookup_ofLines`, a group holds
what the lines define of its color, in their order, and `paletteFindings_miscolored`.
-/

namespace ScriptLint

/-- The line assigns to the color. -/
def Defines (line : Line) (name : String) : Prop :=
  ∃ readonly, Shell.Assigns line ⟨name.toList, readonly⟩

/-- The line assigns to one of the colors of the palette. -/
def DefinesColor (palette : Palette) (line : Line) : Prop :=
  ∃ color ∈ palette.entries, Defines line color.1

/-- Lines of the script define the color, the first of them is line `n`, and the code is on none of
them. -/
structure Miscolored (script : Script) (color : String × String) (n : Nat) : Prop where
  defined : ∃ line, (n, line) ∈ script.numberedLines ∧ Defines line color.1
  first : ∀ m line, (m, line) ∈ script.numberedLines → Defines line color.1 → n ≤ m
  wrong : ∀ m line, (m, line) ∈ script.numberedLines → Defines line color.1 →
    ¬color.2.toList <:+: line

variable {palette : Palette} {name : String} {line : Line} {readonly : Bool}

theorem Palette.isSome_lookup_iff :
    (palette.lookup name).isSome ↔ ∃ color ∈ palette.entries, name = color.1 := by
  simp [Palette.lookup, List.lookup_isSome_iff]

theorem occurs_iff_isInfix {part text : List Char} : occurs part text = true ↔ part <:+: text := by
  rw [occurs_iff]
  exact exists_congr fun before => exists_congr fun after => eq_comm

namespace ColorDefinitions

theorem colorAssignment?_eq_some_iff :
    colorAssignment? palette line = some (name, readonly) ↔
      Shell.Assigns line ⟨name.toList, readonly⟩ ∧ (palette.lookup name).isSome := by
  rw [← Shell.assignment?_eq_some_iff]
  unfold colorAssignment?
  cases hassigns : Shell.assignment? line with
  | none => simp
  | some a =>
    obtain ⟨assigned, readonly⟩ := a
    have hname : assigned = name.toList ↔ String.ofList assigned = name := by
      rw [String.ext_iff, String.toList_ofList]
    simp only [Option.some.injEq, Shell.Assignment.mk.injEq, hname]
    split
    · next hknown =>
      simp only [Option.some.injEq, Prod.mk.injEq, iff_self_and]
      rintro ⟨rfl, -⟩
      exact hknown
    · next hknown =>
      simp only [reduceCtorEq, false_iff]
      rintro ⟨⟨rfl, -⟩, hlookup⟩
      exact hknown hlookup

theorem isSome_colorAssignment?_iff : (colorAssignment? palette line).isSome ↔
    DefinesColor palette line := by
  rw [Option.isSome_iff_exists]
  constructor
  · rintro ⟨⟨name, readonly⟩, h⟩
    obtain ⟨hassigns, hlookup⟩ := colorAssignment?_eq_some_iff.mp h
    obtain ⟨color, hcolor, rfl⟩ := Palette.isSome_lookup_iff.mp hlookup
    exact ⟨color, hcolor, readonly, hassigns⟩
  · rintro ⟨color, hcolor, readonly, hassigns⟩
    exact ⟨(color.1, readonly), colorAssignment?_eq_some_iff.mpr
      ⟨hassigns, Palette.isSome_lookup_iff.mpr ⟨color, hcolor, rfl⟩⟩⟩

end ColorDefinitions

instance (palette : Palette) (line : Line) : Decidable (DefinesColor palette line) :=
  decidable_of_iff _ ColorDefinitions.isSome_colorAssignment?_iff

namespace ColorDefinitions

variable {groups : ColorDefinitions} {numbered : Nat × Line} {ls : List (Nat × Line)}
  {d : ColorDefinition}

/-- What a numbered line defines of a color. -/
def definition? (palette : Palette) (name : String) (numbered : Nat × Line) :
    Option ColorDefinition :=
  (colorAssignment? palette numbered.2).bind fun (other, readonly) =>
    if name == other then some ⟨numbered.1, numbered.2, readonly⟩ else none

theorem definition?_eq_some_iff :
    definition? palette name numbered = some d ↔
      numbered = (d.number, d.line) ∧ colorAssignment? palette d.line =
        some (name, d.readonly) := by
  obtain ⟨number, line⟩ := numbered
  rw [definition?, Option.bind_eq_some_iff]
  constructor
  · rintro ⟨⟨other, readonly⟩, hassigns, h⟩
    simp only at h
    split at h
    · next hname =>
      cases eq_of_beq hname
      cases h
      exact ⟨rfl, hassigns⟩
    · cases h
  · rintro ⟨he, hassigns⟩
    cases he
    exact ⟨(name, d.readonly), hassigns, by simp⟩

/-- The step: a line adds its definition at the end of the group of its color. -/
theorem getD_lookup_addLine (groups : ColorDefinitions) (numbered : Nat × Line) (name : String) :
    ((addLine palette groups numbered).lookup name).getD [] =
      (groups.lookup name).getD [] ++ (definition? palette name numbered).toList := by
  unfold addLine definition?
  cases colorAssignment? palette numbered.2 with
  | none => simp
  | some assigned =>
    obtain ⟨other, readonly⟩ := assigned
    by_cases h : name = other
    · simp [add, Keyed.lookup_alter, h]
    · simp [add, Keyed.lookup_alter, h]

theorem getD_lookup_foldl_addLine (groups : ColorDefinitions) (ls : List (Nat × Line))
    (name : String) :
    ((ls.foldl (addLine palette) groups).lookup name).getD [] =
      (groups.lookup name).getD [] ++ ls.filterMap (definition? palette name) := by
  induction ls generalizing groups with
  | nil => simp
  | cons numbered ls ih =>
    rw [List.foldl_cons, ih, getD_lookup_addLine, List.append_assoc]
    cases h : definition? palette name numbered <;> simp [h]

/-- The run: the group of a color is what the lines define of it. -/
theorem getD_lookup_ofLines (palette : Palette) (ls : List (Nat × Line)) (name : String) :
    ((ofLines palette ls).lookup name).getD [] = ls.filterMap (definition? palette name) :=
  getD_lookup_foldl_addLine [] ls name

/-- The other lines do not matter. -/
theorem ofLines_filter (palette : Palette) (ls : List (Nat × Line)) :
    ofLines palette (ls.filter fun numbered => DefinesColor palette numbered.2) =
      ofLines palette ls := by
  unfold ofLines
  rw [List.foldl_filter]
  congr
  funext groups numbered
  split
  · rfl
  · next h =>
    rw [decide_eq_true_eq, ← isSome_colorAssignment?_iff, Option.not_isSome_iff_eq_none] at h
    rw [addLine, h]

end ColorDefinitions

variable {script : Script} {color : String × String} {n : Nat}

open ColorDefinitions

/-- Where the color is reported: at its first definition, if its code is on none of them. -/
def miscoloredAt? (palette : Palette) (script : Script) (color : String × String) : Option Nat :=
  match script.numberedLines.filterMap (definition? palette color.1) with
  | [] => none
  | first :: others =>
    if (first :: others).any fun d => occurs color.2.toList d.line then none else some first.number

theorem paletteFindings_eq (palette : Palette) (script : Script) :
    paletteFindings palette script = palette.entries.filterMap fun color =>
      (miscoloredAt? palette script color).map fun n => Check.palette.warn (wrongColor color)
        (some n) := by
  unfold paletteFindings miscoloredAt?
  simp only [← getD_lookup_ofLines]
  congr
  funext ⟨name, code⟩
  cases (ofLines palette script.numberedLines).lookup name with
  | none => rfl
  | some ds =>
    cases ds with
    | nil => rfl
    | cons first others =>
      simp only [Option.getD_some]
      split <;> rfl

theorem mem_filterMap_definition?_iff (hcolor : color ∈ palette.entries) (script : Script)
    (d : ColorDefinition) :
    d ∈ script.numberedLines.filterMap (definition? palette color.1) ↔
      (d.number, d.line) ∈ script.numberedLines ∧ Shell.Assigns d.line ⟨color.1.toList,
        d.readonly⟩ := by
  have hknown := Palette.isSome_lookup_iff.mpr ⟨color, hcolor, rfl⟩
  simp only [List.mem_filterMap, definition?_eq_some_iff, colorAssignment?_eq_some_iff, hknown,
    and_true]
  constructor
  · rintro ⟨numbered, hm, rfl, hassigns⟩
    exact ⟨hm, hassigns⟩
  · rintro ⟨hm, hassigns⟩
    exact ⟨_, hm, rfl, hassigns⟩

theorem any_occurs_definitions_iff (hcolor : color ∈ palette.entries) (script : Script) :
    ((script.numberedLines.filterMap (definition? palette color.1)).any fun d =>
      occurs color.2.toList d.line) = true ↔
      ∃ m line, (m, line) ∈ script.numberedLines ∧ Defines line color.1 ∧
        color.2.toList <:+: line := by
  simp only [List.any_eq_true, mem_filterMap_definition?_iff hcolor, occurs_iff_isInfix]
  constructor
  · rintro ⟨d, ⟨hm, hassigns⟩, hcode⟩
    exact ⟨d.number, d.line, hm, ⟨d.readonly, hassigns⟩, hcode⟩
  · rintro ⟨m, line, hm, ⟨readonly, hassigns⟩, hcode⟩
    exact ⟨⟨m, line, readonly⟩, ⟨hm, hassigns⟩, hcode⟩

theorem pairwise_fst_numbered (ls : List Line) : (numbered ls).Pairwise (·.1 < ·.1) := by
  have hnumbers : ((numbered ls).map Prod.fst).Pairwise (· < ·) := by
    rw [map_fst_numbered]
    exact List.pairwise_lt_range' 1
  exact List.pairwise_map.mp hnumbers

/-- Definitions come in the order of their lines. -/
theorem pairwise_definitions (palette : Palette) (ls : List Line) (name : String) :
    ((numbered ls).filterMap (definition? palette name)).Pairwise (·.number < ·.number) := by
  refine List.Pairwise.filterMap _ ?_ (pairwise_fst_numbered ls)
  intro a a' hlt b hb b' hb'
  obtain ⟨rfl, -⟩ := definition?_eq_some_iff.mp hb
  obtain ⟨rfl, -⟩ := definition?_eq_some_iff.mp hb'
  exact hlt

theorem miscoloredAt?_eq_some_iff (hcolor : color ∈ palette.entries) :
    miscoloredAt? palette script color = some n ↔ Miscolored script color n := by
  have hmem := mem_filterMap_definition?_iff hcolor script
  have hsorted : (script.numberedLines.filterMap (definition? palette color.1)).Pairwise
      (·.number < ·.number) :=
    pairwise_definitions palette script.lines color.1
  have hcode := any_occurs_definitions_iff hcolor script
  unfold miscoloredAt?
  generalize script.numberedLines.filterMap (definition? palette color.1) = ds at hmem hsorted hcode
  cases ds with
  | nil =>
    simp only [reduceCtorEq, false_iff]
    rintro ⟨⟨line, hm, readonly, hassigns⟩, -, -⟩
    cases (hmem ⟨n, line, readonly⟩).mpr ⟨hm, hassigns⟩
  | cons first others =>
    obtain ⟨hm, hassigns⟩ := (hmem first).mp List.mem_cons_self
    have hleast : ∀ m line, (m, line) ∈ script.numberedLines → Defines line color.1 →
        first.number ≤ m := by
      rintro m line hm ⟨readonly, hassigns⟩
      rcases List.mem_cons.mp ((hmem ⟨m, line, readonly⟩).mpr ⟨hm, hassigns⟩) with he | he
      · exact Nat.le_of_eq (congrArg ColorDefinition.number he.symm)
      · exact Nat.le_of_lt ((List.pairwise_cons.mp hsorted).1 _ he)
    simp only
    split
    · next h =>
      obtain ⟨m, line, hm, hdefines, hcode⟩ := hcode.mp h
      simp only [reduceCtorEq, false_iff]
      exact fun h => h.wrong m line hm hdefines hcode
    · next h =>
      constructor
      · rintro ⟨rfl⟩
        exact ⟨⟨first.line, hm, first.readonly, hassigns⟩, hleast, fun m line hm hdefines hoccurs =>
          h (hcode.mpr ⟨m, line, hm, hdefines, hoccurs⟩)⟩
      · rintro ⟨⟨line, hn, hdefines⟩, hfirst, -⟩
        have hle := hfirst _ _ hm ⟨first.readonly, hassigns⟩
        rw [Nat.le_antisymm (hleast n line hn hdefines) hle]

/-- The check of the palette warns of the colors whose code is on none of their definitions, each
once and at the first of its definitions, in the order of the palette. Lines that define no color of
the palette do not matter. -/
theorem paletteFindings_miscolored (palette : Palette) (script : Script) :
    (∃ reported : List ((String × String) × Nat),
      (reported.map Prod.fst).Sublist palette.entries ∧
      (∀ color n, (color, n) ∈ reported ↔ color ∈ palette.entries ∧ Miscolored script color n) ∧
      paletteFindings palette script =
        reported.map fun (color, n) => Check.palette.warn (wrongColor color) (some n)) ∧
    ∀ other : Script,
      other.numberedLines.filter (fun (_, line) => DefinesColor palette line) =
        script.numberedLines.filter (fun (_, line) => DefinesColor palette line) →
      paletteFindings palette other = paletteFindings palette script := by
  constructor
  · refine ⟨palette.entries.filterMap fun color => (miscoloredAt? palette script color).map (color,
      ·), ?_, ?_, ?_⟩
    · rw [List.map_filterMap]
      have hkept : (fun color : String × String =>
          ((miscoloredAt? palette script color).map (color, ·)).map Prod.fst) =
            Option.guard fun color => (miscoloredAt? palette script color).isSome := by
        funext color
        cases h : miscoloredAt? palette script color <;> simp [Option.guard, h]
      rw [hkept, List.filterMap_eq_filter]
      exact List.filter_sublist
    · intro color n
      simp only [List.mem_filterMap, Option.map_eq_some_iff, Prod.mk.injEq]
      constructor
      · rintro ⟨_, hcolor, _, hn, rfl, rfl⟩
        exact ⟨hcolor, (miscoloredAt?_eq_some_iff hcolor).mp hn⟩
      · rintro ⟨hcolor, hn⟩
        exact ⟨color, hcolor, n, (miscoloredAt?_eq_some_iff hcolor).mpr hn, rfl, rfl⟩
    · rw [paletteFindings_eq, List.map_filterMap]
      simp only [Option.map_map]
      rfl
  · intro other h
    have hgroups := congrArg (ofLines palette) h
    rw [ofLines_filter, ofLines_filter] at hgroups
    unfold paletteFindings
    rw [hgroups]

/-- A script that defines one color twice, with a wrong code, and another with its own code. -/
def recoloredScript : Script where
  path := "/a.sh"
  extension := "sh"
  text := "set -e\nreadonly RED='1;2;3'\n  BLUE='137;180;250'\nRED=''\n".toList

/-- The same definitions among other lines. -/
def rewordedScript : Script :=
  { recoloredScript with text :=
    "ls\nreadonly RED='1;2;3'\n  BLUE='137;180;250'\nRED=''\necho GREEN=\n".toList }

theorem paletteFindings_miscolored_recoloredScript :
    rewordedScript.numberedLines.filter (fun (_, line) => DefinesColor Palette.standard line) =
        recoloredScript.numberedLines.filter (fun (_, line) => DefinesColor Palette.standard line) ∧
      paletteFindings Palette.standard rewordedScript =
        paletteFindings Palette.standard recoloredScript ∧
      paletteFindings Palette.standard recoloredScript =
        [Check.palette.warn (wrongColor ("RED", "243;139;168")) (some 2)] := by
  have hlines : rewordedScript.numberedLines.filter
      (fun (_, line) => DefinesColor Palette.standard line) =
      recoloredScript.numberedLines.filter
        (fun (_, line) => DefinesColor Palette.standard line) := by
    decide +kernel
  exact ⟨hlines,
    (paletteFindings_miscolored Palette.standard recoloredScript).2 rewordedScript hlines, by
      decide +kernel⟩

end ScriptLint
