import Mathlib.Data.List.Nodup
import ScriptLint.Proofs.Failure
import ScriptLint.Proofs.WrongColors

/-!
Colors that can be reported. A color is live if some script defines it with a wrong code. No script
can if the name is no identifier, or if the code is part of every line that defines the color, and
such a color might as well be missing from the palette. Main statements: `exists_miscolored_iff` and
`paletteFindings_live`.
-/

namespace ScriptLint

variable {palette : Palette} {script : Script} {color other : String × String} {line : Line}
  {n : Nat}

/-- The shortest line that assigns to the color. -/
def shortestDefinition (color : String × String) : Line :=
  color.1.toList ++ ['=']

/-- The name is an identifier, and the code is not part of every definition. -/
def IsLive (color : String × String) : Prop :=
  Shell.IsIdentifier color.1.toList ∧ ¬color.2.toList <:+: shortestDefinition color

instance (name : List Char) : Decidable (Shell.IsIdentifier name) :=
  decidable_of_iff (Shell.identifier? name = some (name, []))
    (by simp [Shell.identifier?_eq_some_iff, stops_nil])

instance (color : String × String) : Decidable (IsLive color) :=
  inferInstanceAs (Decidable (_ ∧ _))

namespace Palette

/-- The palette without the color of this name. -/
def without (p : Palette) (name : String) : Palette where
  entries := p.entries.filter (·.1 ≠ name)
  nodup := p.nodup.sublist (List.filter_sublist.map Prod.fst)

theorem eq_of_fst_eq (hcolor : color ∈ palette.entries) (hother : other ∈ palette.entries)
    (h : other.1 = color.1) :
    other = color :=
  List.inj_on_of_nodup_map palette.nodup hother hcolor h

theorem mem_without_iff {name : String} : color ∈ (palette.without name).entries ↔
    color ∈ palette.entries ∧ color.1 ≠ name := by
  simp [without]

/-- The colors of a palette count wherever there are some. -/
theorem orStandard_of_mem (h : color ∈ palette.entries) : palette.orStandard = palette := by
  have hne : palette.isEmpty = false := List.isEmpty_eq_false_iff.mpr (List.ne_nil_of_mem h)
  simp [orStandard, hne]

end Palette

/-! ## What defines a color -/

/-- Whatever defines a color holds its shortest definition. -/
theorem Defines.isInfix (h : Defines line color.1) : shortestDefinition color <:+: line := by
  obtain ⟨readonly, hassigns⟩ := h
  generalize he : (⟨color.1.toList, readonly⟩ : Shell.Assignment) = a at hassigns
  cases hassigns with
  | @plain lead name rest hlead hname =>
    cases he
    exact ⟨lead, rest, by simp [shortestDefinition]⟩
  | @readonly lead gap name rest hlead hne hgap hname =>
    cases he
    exact ⟨lead ++ ("readonly".toList ++ gap), rest, by simp [shortestDefinition]⟩

theorem Defines.isIdentifier (h : Defines line color.1) : Shell.IsIdentifier color.1.toList := by
  obtain ⟨readonly, hassigns⟩ := h
  generalize he : (⟨color.1.toList, readonly⟩ : Shell.Assignment) = a at hassigns
  cases hassigns with
  | plain hlead hname =>
    cases he
    exact hname
  | readonly hlead hne hgap hname =>
    cases he
    exact hname

/-- A line defines one color. -/
theorem Defines.name_eq {name name' : String} (h : Defines line name) (h' : Defines line name') :
    name = name' := by
  obtain ⟨_, hassigns⟩ := h
  obtain ⟨_, hassigns'⟩ := h'
  have he := (Shell.assignment?_eq_some_iff.mpr hassigns).symm.trans
    (Shell.assignment?_eq_some_iff.mpr hassigns')
  exact String.toList_inj.mp (congrArg Shell.Assignment.name (Option.some.inj he))

theorem defines_shortestDefinition (h : Shell.IsIdentifier color.1.toList) :
    Defines (shortestDefinition color) color.1 :=
  ⟨false, @Shell.Assigns.plain [] color.1.toList [] nofun h⟩

/-! ## Scripts that define a color -/

theorem numberedLines_eq (h : Shell.IsIdentifier color.1.toList)
    (htext : script.text = shortestDefinition color) :
    script.numberedLines = [(1, shortestDefinition color)] := by
  have hread : Shell.identifier? (shortestDefinition color) = some (color.1.toList, ['=']) :=
    Shell.identifier?_eq_some_iff.mpr ⟨rfl, h, stops_cons.mpr rfl⟩
  have hlf : '\n' ∉ shortestDefinition color := by
    simpa [shortestDefinition] using Shell.not_mem_of_readName? rfl rfl hread
  rw [Script.numberedLines, Script.lines, htext,
    lines_of_lf_not_mem (by simp [shortestDefinition]) hlf]
  rfl

/-- A script of one line that defines the color. -/
theorem miscolored_iff (h : Shell.IsIdentifier color.1.toList)
    (htext : script.text = shortestDefinition color) :
    Miscolored script other n ↔ other.1 = color.1 ∧ ¬other.2.toList <:+: shortestDefinition color ∧
      n = 1 := by
  have hlines := numberedLines_eq h htext
  constructor
  · rintro ⟨⟨line, hm, hdefines⟩, -, hwrong⟩
    rw [hlines] at hm
    cases List.mem_singleton.mp hm
    exact ⟨hdefines.name_eq (defines_shortestDefinition h),
      hwrong 1 _ (hlines ▸ List.mem_singleton_self _) hdefines, rfl⟩
  · rintro ⟨hname, hcode, rfl⟩
    have hdefines := defines_shortestDefinition h
    rw [← hname] at hdefines
    refine ⟨⟨_, hlines ▸ List.mem_singleton_self _, hdefines⟩, fun m line hm _ => ?_,
      fun m line hm _ => ?_⟩
    · rw [hlines] at hm
      cases List.mem_singleton.mp hm
      exact Nat.le_refl 1
    · rw [hlines] at hm
      cases List.mem_singleton.mp hm
      exact hcode

theorem exists_miscolored_iff : (∃ script n, Miscolored script color n) ↔ IsLive color := by
  constructor
  · rintro ⟨script, n, ⟨line, hm, hdefines⟩, -, hwrong⟩
    exact ⟨hdefines.isIdentifier,
      fun hcode => hwrong n line hm hdefines (hcode.trans hdefines.isInfix)⟩
  · rintro ⟨hname, hcode⟩
    let script : Script := { path := "", extension := "", text := shortestDefinition color }
    exact ⟨script, 1, (miscolored_iff hname rfl).mpr ⟨rfl, hcode, rfl⟩⟩

/-! ## The check -/

/-- Which color is reported does not depend on the other colors of the palette. -/
theorem miscoloredAt?_without {name : String} (hother : other ∈ palette.entries)
    (hne : other.1 ≠ name) (script : Script) :
    miscoloredAt? (palette.without name) script other = miscoloredAt? palette script other := by
  ext n
  rw [miscoloredAt?_eq_some_iff hother,
    miscoloredAt?_eq_some_iff (Palette.mem_without_iff.mpr ⟨hother, hne⟩)]

/-- A color that is nowhere reported might as well be missing. -/
theorem paletteFindings_without (hcolor : color ∈ palette.entries)
    (h : ∀ n, ¬Miscolored script color n) :
    paletteFindings (palette.without color.1) script = paletteFindings palette script := by
  rw [paletteFindings_eq, paletteFindings_eq, Palette.without, List.filterMap_filter]
  refine List.filterMap_congr fun other hother => ?_
  by_cases hname : other.1 = color.1
  · have hnone : miscoloredAt? palette script other = none := by
      rw [Option.eq_none_iff_forall_ne_some]
      intro n hn
      rw [miscoloredAt?_eq_some_iff hother, Palette.eq_of_fst_eq hcolor hother hname] at hn
      exact h n hn
    simp [hname, hnone]
  · rw [if_pos (decide_eq_true hname)]
    exact congrArg (Option.map _) (miscoloredAt?_without hother hname script)

/-- The only finding on the shortest definition of a color is the one on this color. -/
theorem paletteFindings_shortestDefinition (hcolor : color ∈ palette.entries) (h : IsLive color)
    (htext : script.text = shortestDefinition color) :
    paletteFindings palette script = [Check.palette.warn (wrongColor color) (some 1)] := by
  have hreported : miscoloredAt? palette script color = some 1 :=
    (miscoloredAt?_eq_some_iff hcolor).mpr ((miscolored_iff h.1 htext).mpr ⟨rfl, h.2, rfl⟩)
  have hsilent (other) (hother : other ∈ palette.entries) (hne : other.1 ≠ color.1) :
      miscoloredAt? palette script other = none := by
    rw [Option.eq_none_iff_forall_ne_some]
    intro n hn
    exact hne ((miscolored_iff h.1 htext).mp ((miscoloredAt?_eq_some_iff hother).mp hn)).1
  obtain ⟨before, after, hentries⟩ := List.append_of_mem hcolor
  have hnodup := palette.nodup
  rw [hentries, List.map_append, List.map_cons, List.nodup_middle, ← List.map_append,
    List.nodup_cons] at hnodup
  have hnone : ∀ other ∈ before ++ after, miscoloredAt? palette script other = none := by
    intro other hother
    refine hsilent other ?_ fun hname => hnodup.1 (hname ▸ List.mem_map_of_mem hother)
    rw [hentries]
    exact List.mem_append.mpr ((List.mem_append.mp hother).imp_right (List.mem_cons_of_mem color))
  obtain ⟨hbefore, hafter⟩ := List.forall_mem_append.mp hnone
  rw [paletteFindings_eq, hentries, List.filterMap_append, List.filterMap_cons, hreported,
    List.filterMap_eq_nil_iff.mpr fun other hm => by rw [hbefore other hm]; rfl,
    List.filterMap_eq_nil_iff.mpr fun other hm => by rw [hafter other hm]; rfl]
  rfl

theorem paletteFindings_without_shortestDefinition (h : Shell.IsIdentifier color.1.toList)
    (htext : script.text = shortestDefinition color) :
      paletteFindings (palette.without color.1) script = [] := by
  rw [paletteFindings_eq, List.filterMap_eq_nil_iff]
  intro other hother
  rw [Option.map_eq_none_iff, Option.eq_none_iff_forall_ne_some]
  intro n hn
  have hname := ((miscolored_iff h htext).mp ((miscoloredAt?_eq_some_iff hother).mp hn)).1
  exact (Palette.mem_without_iff.mp hother).2 hname

/-! ## Accepted configurations -/

/-- The colors of a configuration that is accepted. Their codes are not blank, and that is all that
is asked of them. A color makes a difference to the findings on some script exactly if its name is
an identifier and its code is not part of the shortest line that assigns to it. On this line alone,
the one finding is then that on the color. -/
theorem paletteFindings_live {config : Config} (hvalid : config.validate = .ok ())
    (hcolor : color ∈ config.palette.entries) :
    let palette := config.palette.orStandard
    isBlankText color.2 = false ∧
    ((∃ script, paletteFindings palette script ≠ paletteFindings (palette.without color.1) script) ↔
      IsLive color) ∧
    (IsLive color → ∀ script : Script, script.text = shortestDefinition color →
      paletteFindings palette script = [Check.palette.warn (wrongColor color) (some 1)]) := by
  intro palette
  have hpalette : palette = config.palette := Palette.orStandard_of_mem hcolor
  rw [hpalette]
  refine ⟨(Config.validate_eq_ok_iff.mp hvalid).2.2.1 color hcolor, ⟨?_, ?_⟩, ?_⟩
  · rintro ⟨script, hdiffers⟩
    by_contra hdead
    refine hdiffers (paletteFindings_without hcolor fun n hn => hdead ?_).symm
    exact exists_miscolored_iff.mp ⟨script, n, hn⟩
  · intro hlive
    refine ⟨{ path := "", extension := "", text := shortestDefinition color }, ?_⟩
    rw [paletteFindings_shortestDefinition hcolor hlive rfl,
      paletteFindings_without_shortestDefinition hlive.1 rfl]
    exact List.cons_ne_nil _ _
  · exact fun hlive script htext => paletteFindings_shortestDefinition hcolor hlive htext

/-- A configuration whose palette has these colors. -/
def paletteConfig (colors : List (String × String)) : Config where
  palette := Palette.ofList colors

theorem mem_paletteConfig (color : String × String) :
    color ∈ (paletteConfig [color]).palette.entries :=
  List.mem_singleton_self color

theorem validate_paletteConfig {colors : List (String × String)}
    (h : ∀ color ∈ (Palette.ofList colors).entries, isBlankText color.2 = false) :
    (paletteConfig colors).validate = .ok () :=
  Config.validate_eq_ok_iff.mpr ⟨nofun, nofun, h,
    (Config.validate_eq_ok_iff.mp Config.validate_default).2.2.2⟩

theorem paletteFindings_live_paletteConfig :
    let config := paletteConfig [("RED", "1;2;3"), ("MY-RED", "1;2;3")]
    config.validate = .ok () ∧
      (∃ script, paletteFindings config.palette.orStandard script ≠
        paletteFindings (config.palette.orStandard.without "RED") script) ∧
      ∀ script, paletteFindings config.palette.orStandard script =
        paletteFindings (config.palette.orStandard.without "MY-RED") script := by
  intro config
  have hvalid : config.validate = .ok () := validate_paletteConfig (by decide)
  have hred : ("RED", "1;2;3") ∈ config.palette.entries := by decide
  have hdashed : ("MY-RED", "1;2;3") ∈ config.palette.entries := by decide
  refine ⟨hvalid, (paletteFindings_live hvalid hred).2.1.mpr (by decide), fun script => ?_⟩
  by_contra hdiffers
  exact absurd ((paletteFindings_live hvalid hdashed).2.1.mp ⟨script, hdiffers⟩) (by decide)

theorem paletteFindings_of_not_live (h : ¬IsLive color) (script : Script) :
    paletteFindings (paletteConfig [color]).palette.orStandard script = [] := by
  have hcolor := mem_paletteConfig color
  have hdead (n : Nat) : ¬Miscolored script color n :=
    fun hn => h (exists_miscolored_iff.mp ⟨script, n, hn⟩)
  have hentries : ((paletteConfig [color]).palette.without color.1).entries = [] := by
    simp [Palette.without, paletteConfig, Palette.ofList, Palette.insert, Palette.empty, Keyed.put,
      Keyed.alter]
  rw [Palette.orStandard_of_mem hcolor, ← paletteFindings_without hcolor hdead, paletteFindings_eq,
    hentries]
  rfl

/-- Configurations with colors that no script can have reported: with a name that is no identifier,
or with a code that is on every line that defines the color. -/
theorem not_paletteFindings_live :
    (¬∀ config : Config, config.validate = .ok () → ∀ color ∈ config.palette.entries,
      ∃ script n, Check.palette.warn (wrongColor color) (some n) ∈
        paletteFindings config.palette.orStandard script) ∧
    ∀ color ∈ [("MY-RED", "1;2;3"), ("RED", "=")], (paletteConfig [color]).validate = .ok () ∧
      ∀ script, paletteFindings (paletteConfig [color]).palette.orStandard script = [] := by
  have hcolors : ∀ color ∈ [("MY-RED", "1;2;3"), ("RED", "=")],
      (paletteConfig [color]).validate = .ok () ∧
      ∀ script, paletteFindings (paletteConfig [color]).palette.orStandard script = [] := by
    simp only [List.forall_mem_cons]
    exact ⟨⟨validate_paletteConfig (by decide), paletteFindings_of_not_live (by decide)⟩,
      ⟨validate_paletteConfig (by decide), paletteFindings_of_not_live (by decide)⟩, nofun⟩
  refine ⟨fun hall => ?_, hcolors⟩
  obtain ⟨hvalid, hnone⟩ := hcolors ("MY-RED", "1;2;3") List.mem_cons_self
  obtain ⟨script, n, hm⟩ := hall _ hvalid _ (mem_paletteConfig ("MY-RED", "1;2;3"))
  rw [hnone] at hm
  cases hm

end ScriptLint
