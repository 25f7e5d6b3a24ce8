import ScriptLint.CommandLine.Parser
import ScriptLint.Proofs.Failure

/-!
What options mean that are given one after the other. What is given in the end is told by the values
of each option in their order; it does not matter how the options are mixed. Main statements:
`add_collect`, the step, and `adds_collect`, the run.
-/

namespace ScriptLint.CommandLine

/-- An option with its value; a flag has an empty one. -/
abbrev OptionValue := Opt × String

/-- The values of an option, in their order. -/
def valuesOf (opt : Opt) (given : List OptionValue) : List String :=
  (given.filter (·.1 = opt)).map (·.2)

/-- An option that may be given only once. -/
def Opt.IsSingle : Opt → Prop
  | .verbose | .types | .exclude => False
  | _ => True

/-- The option can have the value. No value makes a request for help a request for something
else. -/
def Opt.Accepts : Opt → String → Prop
  | .help, _ | .version, _ => False
  | .color, value => (color? value).isSome
  | .config, value | .output, value => (Given.path? value).isSome
  | .format, value => (ReportFormat.named? value).isSome
  | .jobs, value => (jobs? value).isSome
  | _, _ => True

/-- Options that can be given together on one level. -/
structure Fits (given : List OptionValue) : Prop where
  once : ∀ opt : Opt, opt.IsSingle → (valuesOf opt given).length ≤ 1
  accepted : ∀ option ∈ given, option.1.Accepts option.2

namespace Given

/-- Adds options one after the other. -/
def adds (g : Given) (given : List OptionValue) : Except Refusal Given :=
  given.foldlM (fun g option => g.add option.1 option.2) g

/-- How often a flag counts that is given `n` times. -/
def count : Nat → Option Nat
  | 0 => none
  | n + 1 => some (min maxCount (n + 1))

/-- The names in the values of an option that takes several between commas. -/
def splitValues : List String → Option (List String)
  | [] => none
  | values => some (values.flatMap fun value => (splitCommas value.toList).map String.ofList)

/-- What the options give, each told by its values alone. -/
def collect (given : List OptionValue) : Given where
  verbose := count (valuesOf .verbose given).length
  quiet := !(valuesOf .quiet given).isEmpty
  color := (valuesOf .color given).head?.bind color?
  config := (valuesOf .config given).head?.bind path?
  noConfig := !(valuesOf .noConfig given).isEmpty
  types := splitValues (valuesOf .types given)
  recursive := !(valuesOf .recursive given).isEmpty
  exclude := valuesOf .exclude given
  format := (valuesOf .format given).head?.bind ReportFormat.named?
  output := (valuesOf .output given).head?.bind path?
  noSyntax := !(valuesOf .noSyntax given).isEmpty
  shell := (valuesOf .shell given).head?
  jobs := (valuesOf .jobs given).head?.bind jobs?
  checkOnly := !(valuesOf .checkOnly given).isEmpty
  program := (valuesOf .program given).head?
  force := !(valuesOf .force given).isEmpty

end Given

variable {opt : Opt} {value : String} {given more : List OptionValue} {g : Given}

/-! ## Values -/

@[simp]
theorem valuesOf_append (opt : Opt) (given more : List OptionValue) :
    valuesOf opt (given ++ more) = valuesOf opt given ++ valuesOf opt more := by
  simp [valuesOf]

theorem valuesOf_singleton (opt other : Opt) (value : String) :
    valuesOf opt [(other, value)] = if other = opt then [value] else [] := by
  by_cases h : other = opt <;> simp [valuesOf, h]

theorem mem_valuesOf_iff : value ∈ valuesOf opt given ↔ (opt, value) ∈ given := by
  simp [valuesOf]

namespace Fits

theorem left (h : Fits (given ++ more)) : Fits given where
  once opt hsingle := by
    have hlength := h.once opt hsingle
    rw [valuesOf_append, List.length_append] at hlength
    omega
  accepted option hm := h.accepted option (List.mem_append_left more hm)

theorem right (h : Fits (given ++ more)) : Fits more where
  once opt hsingle := by
    have hlength := h.once opt hsingle
    rw [valuesOf_append, List.length_append] at hlength
    omega
  accepted option hm := h.accepted option (List.mem_append_right given hm)

/-- An option that may be given once and is given last was not given before. -/
theorem valuesOf_eq_nil (h : Fits (given ++ [(opt, value)])) (hsingle : opt.IsSingle) :
    valuesOf opt given = [] := by
  have hlength := h.once opt hsingle
  rw [valuesOf_append, valuesOf_singleton, if_pos rfl, List.length_append,
    List.length_singleton] at hlength
  exact List.length_eq_zero_iff.mp (by omega)

theorem accepts_last (h : Fits (given ++ [(opt, value)])) : opt.Accepts value :=
  h.accepted (opt, value) (by simp)

end Fits

namespace Given

theorem count_succ (n : Nat) : some (min maxCount ((count n).getD 0 + 1)) = count (n + 1) := by
  cases n with
  | zero => rfl
  | succ n => simp only [count, Option.getD_some, Option.some.injEq]; omega

theorem splitValues_append (values : List String) (value : String) :
    some ((splitValues values).getD [] ++ (splitCommas value.toList).map String.ofList) =
      splitValues (values ++ [value]) := by
  cases values <;> simp [splitValues]

/-- The step: an option changes what is told by its own values. -/
theorem add_collect (h : Fits (given ++ [(opt, value)])) :
    (collect given).add opt value = .ok (collect (given ++ [(opt, value)])) := by
  have haccepts := h.accepts_last
  cases opt with
  | help => cases haccepts
  | version => cases haccepts
  | verbose => simp [add, collect, valuesOf_singleton, count_succ]
  | types => simp [add, collect, valuesOf_singleton, splitValues_append]
  | exclude => simp [add, collect, valuesOf_singleton]
  | quiet | noConfig | recursive | noSyntax | checkOnly | force =>
    have hnil := h.valuesOf_eq_nil trivial
    simp [add, flag, collect, valuesOf_singleton, hnil]
  | shell | program =>
    have hnil := h.valuesOf_eq_nil trivial
    simp [add, single, collect, valuesOf_singleton, hnil]
  | color | config | format | output | jobs =>
    have hnil := h.valuesOf_eq_nil trivial
    obtain ⟨v, hv⟩ := Option.isSome_iff_exists.mp haccepts
    simp [add, single, collect, valuesOf_singleton, hnil, hv]

theorem adds_append : g.adds (given ++ more) = g.adds given >>= fun g' => g'.adds more :=
  List.foldlM_append

/-- The run: options that can be given together give what their values tell. -/
theorem adds_collect (h : Fits (given ++ more)) :
    (collect given).adds more = .ok (collect (given ++ more)) := by
  induction more generalizing given with
  | nil => rw [List.append_nil]; rfl
  | cons option more ih =>
    rw [List.append_cons] at h ⊢
    rw [← ih h, adds, List.foldlM_cons, add_collect h.left]
    rfl

theorem adds_eq_collect (h : Fits given) : adds {} given = .ok (collect given) := by
  have hrun : (collect []).adds given = .ok (collect ([] ++ given)) := adds_collect h
  exact hrun

/-- Options do not exclude each other where one of each pair is not given. -/
theorem hasConflict_collect (hverbosity : valuesOf .quiet given = [] ∨ valuesOf .verbose given = [])
    (hconfig : valuesOf .noConfig given = [] ∨ valuesOf .config given = []) :
      (collect given).hasConflict = false := by
  have hloud : ((collect given).quiet && (collect given).verbose.isSome) = false := by
    rcases hverbosity with h | h <;> simp [collect, count, h]
  have hfile : ((collect given).noConfig && (collect given).config.isSome) = false := by
    rcases hconfig with h | h <;> simp [collect, h]
  rw [hasConflict, hloud, hfile]
  rfl

end Given

/-! ## Values that are read back -/

theorem splitCommas_of_not_mem {part : List Char} (h : ',' ∉ part) : splitCommas part = [part] := by
  induction part with
  | nil => rfl
  | cons c part ih =>
    simp only [List.mem_cons, not_or] at h
    simp [splitCommas, Ne.symm h.1, ih h.2]

theorem splitCommas_append {part : List Char} (h : ',' ∉ part) (rest : List Char) :
    splitCommas (part ++ ',' :: rest) = part :: splitCommas rest := by
  induction part with
  | nil => simp [splitCommas]
  | cons c part ih =>
    simp only [List.mem_cons, not_or] at h
    simp [splitCommas, Ne.symm h.1, ih h.2]

/-- Texts without commas that stand between commas are read back. -/
theorem splitCommas_intercalate {parts : List (List Char)} (hne : parts ≠ [])
    (h : ∀ part ∈ parts, ',' ∉ part) :
    splitCommas ([','].intercalate parts) = parts := by
  induction parts with
  | nil => exact absurd rfl hne
  | cons part parts ih =>
    have hpart := h part List.mem_cons_self
    cases parts with
    | nil => rw [List.intercalate_singleton, splitCommas_of_not_mem hpart]
    | cons next parts =>
      have hrest :=
        ih (List.cons_ne_nil next parts) fun part hm => h part (List.mem_cons_of_mem _ hm)
      rw [List.intercalate_cons_cons, List.append_assoc, List.singleton_append,
        splitCommas_append hpart, hrest]

theorem map_splitCommas_intercalate {names : List String} (hne : names ≠ [])
    (h : ∀ name ∈ names, ',' ∉ name.toList) :
    (splitCommas (String.intercalate "," names).toList).map String.ofList = names := by
  have hparts : splitCommas ([','].intercalate (names.map String.toList)) =
      names.map String.toList :=
    splitCommas_intercalate (by simpa using hne) (by simpa using h)
  rw [String.toList_intercalate]
  show (splitCommas ([','].intercalate (names.map String.toList))).map String.ofList = names
  rw [hparts, List.map_map]
  simp

/-- Names between commas, divided over several values, are read back in their order. -/
theorem splitValues_intercalate {types : Option (List String)} {groups : List (List String)}
    (htypes : types ≠ some [])
    (hcommas : ∀ name ∈ types.getD [], ',' ∉ name.toList) (hne : [] ∉ groups)
    (hgroups : groups.flatten = types.getD []) :
    Given.splitValues (groups.map (String.intercalate ",")) = types := by
  have hread (group) (hm : group ∈ groups) :
      (splitCommas (String.intercalate "," group).toList).map String.ofList = group := by
    refine map_splitCommas_intercalate (ne_of_mem_of_not_mem hm hne) fun name hname =>
      hcommas name ?_
    rw [← hgroups]
    exact List.mem_flatten_of_mem hm hname
  have hnames : (groups.map (String.intercalate ",")).flatMap
      (fun value => (splitCommas value.toList).map String.ofList) = types.getD [] := by
    rw [List.flatMap_def, List.map_map, ← hgroups]
    exact congrArg List.flatten ((List.map_congr_left hread).trans (List.map_id groups))
  cases groups with
  | nil =>
    cases types with
    | none => rfl
    | some names => exact absurd (congrArg some hgroups.symm) htypes
  | cons group groups =>
    cases types with
    | none =>
      have hnil : group = [] := List.flatten_eq_nil_iff.mp hgroups group List.mem_cons_self
      exact absurd (hnil ▸ List.mem_cons_self) hne
    | some names => exact congrArg some hnames

theorem wholeNumber?_decimalText (n : Nat) : wholeNumber? (decimalText n) = some n := by
  have hplus (s : List Char) : decimal n ≠ '+' :: s := by
    intro h
    cases (isDigit_of_mem_decimal (h ▸ List.mem_cons_self) : '+'.isDigit = true)
  have hall : (decimal n).all Char.isDigit = true :=
    List.all_eq_true.mpr fun _ hc => isDigit_of_mem_decimal hc
  simp [wholeNumber?, decimalText, decimal_ne_nil, hall, ofDecimal_decimal]

theorem jobs?_decimalText {n : Nat} (hlow : 1 ≤ n) (hhigh : n ≤ 65535) :
    jobs? (decimalText n) = some n := by
  simp [jobs?, wholeNumber?_decimalText, hlow, hhigh]

end ScriptLint.CommandLine
