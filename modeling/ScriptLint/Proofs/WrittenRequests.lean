import ScriptLint.Proofs.ExclusiveFlags
import ScriptLint.Proofs.LineGrammar
import ScriptLint.Proofs.OptionValues

/-!
Requests that are written down. An option is written by its name, with its value after an equals
sign, and a flag by its name or its letter. Main statements: `add_text`, what one argument adds,
`readGlobal_texts` and `foldlM_add_texts`, what the arguments of a level add, and `parse_written`, a
request to check that is written down is read back.
-/

namespace ScriptLint

def ColorMode.name : ColorMode → String
  | auto => "auto"
  | always => "always"
  | never => "never"

def ReportFormat.name : ReportFormat → String
  | text => "text"
  | json => "json"

namespace CommandLine

/-! ## Arguments -/

/-- An argument that gives options: one with its value, a flag by its name, or flags by their
letters. -/
inductive Argument where
  | value (opt : Opt) (value : String)
  | flag (opt : Opt)
  | letters (opts : List Opt)
  deriving DecidableEq, Repr

namespace Argument

def text : Argument → String
  | value opt v => "--" ++ opt.long ++ "=" ++ v
  | flag opt => "--" ++ opt.long
  | letters opts => "-" ++ String.ofList (opts.filterMap Opt.short?)

def given : Argument → List OptionValue
  | value opt v => [(opt, v)]
  | flag opt => [(opt, "")]
  | letters opts => opts.map (·, "")

/-- The argument can stand on the level. -/
def StandsOn (level : Level) : Argument → Prop
  | value opt _ => opt ∈ level.options ∧ opt.takesValue = true
  | flag opt => opt ∈ level.options ∧ opt.takesValue = false
  | letters opts =>
    opts ≠ [] ∧ ∀ opt ∈ opts, opt ∈ level.options ∧ opt.takesValue = false ∧ opt.short?.isSome

instance (level : Level) : (a : Argument) → Decidable (a.StandsOn level)
  | value _ _ => inferInstanceAs (Decidable (_ ∧ _))
  | flag _ => inferInstanceAs (Decidable (_ ∧ _))
  | letters _ => inferInstanceAs (Decidable (_ ∧ _))

end Argument

variable {level : Level} {opt : Opt} {g g' : Given} {a : Argument} {args : List Argument}
  {given : List OptionValue}

theorem long?_long (h : opt ∈ level.options) : level.long? opt.long = some opt := by
  have hall : ∀ opt ∈ level.options, level.long? opt.long = some opt := by
    cases level <;> decide
  exact hall opt h

theorem short?_short {c : Char} (h : opt ∈ level.options) (hc : opt.short? = some c) :
    level.short? c = some opt := by
  have hall : ∀ opt ∈ level.options, opt.short?.all fun c => level.short? c = some opt := by
    cases level <;> decide
  simpa [hc] using hall opt h

theorem exists_long_eq_cons (opt : Opt) : ∃ c s, opt.long.toList = c :: s := by
  cases opt <;> exact ⟨_, _, rfl⟩

/-! ## What an argument adds -/

namespace Reading

theorem addOption_eq_ok {value : String} (h : g.add opt value = .ok g') :
    addOption { given := g } opt value = .ok { given := g' } := by
  simp only [addOption, settle, bind, Except.bind, h]
  rfl

/-- An argument that starts with two dashes names an option, and gives its value if an equals sign
follows. -/
theorem add_long {p : Reading} {arg : String} {rest : List Char} (hpaths : p.onlyPaths = false)
    (harg : arg.toList = '-' :: '-' :: (opt.long.toList ++ rest)) (hrest : Stops (· != '=') rest) :
    p.add level arg =
      p.addLong level opt.long (rest.head?.map fun _ => String.ofList rest.tail) := by
  have hname : opt.long.toList.all (· != '=') = true := by cases opt <;> rfl
  rw [List.all_eq_true] at hname
  have htake := takeWhile_append_of_stops hname hrest
  have hdrop := dropWhile_append_of_stops hname hrest
  have hback : String.ofList opt.long.toList = opt.long := String.ofList_toList
  -- a name is not empty, so the argument is not the pair of dashes behind which only paths come
  obtain ⟨c, name, hlong⟩ := exists_long_eq_cons opt
  rw [hlong] at harg htake hdrop hback
  rw [List.cons_append] at harg htake hdrop
  simp only [add, hpaths, harg, htake, hdrop, hback, Bool.false_eq_true, if_false]
  cases rest <;> rfl

/-- Letters of flags add the flags in their order. -/
theorem addShorts_letters {opts : List Opt}
    (h : ∀ opt ∈ opts, opt ∈ level.options ∧ opt.takesValue = false ∧ opt.short?.isSome)
    (hadds : g.adds (opts.map (·, "")) = .ok g') :
    addShorts level { given := g } (opts.filterMap Opt.short?) = .ok { given := g' } := by
  induction opts generalizing g with
  | nil =>
    cases hadds
    rfl
  | cons opt opts ih =>
    obtain ⟨hopt, hflag, hshort⟩ := h opt List.mem_cons_self
    obtain ⟨c, hc⟩ := Option.isSome_iff_exists.mp hshort
    obtain ⟨g₁, hadd, hadds⟩ := bind_eq_ok_iff.mp hadds
    rw [List.filterMap_cons_some hc, addShorts, short?_short hopt hc]
    simp only [hflag, addOption_eq_ok hadd]
    exact ih (fun opt hm => h opt (List.mem_cons_of_mem _ hm)) hadds

/-- The step: an argument adds the options that it gives. -/
theorem add_text (h : a.StandsOn level) (hadds : g.adds a.given = .ok g') :
    Reading.add level { given := g } a.text = .ok { given := g' } := by
  cases a with
  | value opt v =>
    obtain ⟨hopt, hvalue⟩ := h
    obtain ⟨g₁, hadd, hg'⟩ := bind_eq_ok_iff.mp hadds
    cases hg'
    have htext : (Argument.value opt v).text.toList =
        '-' :: '-' :: (opt.long.toList ++ '=' :: v.toList) := by
      simp [Argument.text]
    rw [add_long rfl htext (stops_cons.mpr rfl)]
    simp [addLong, long?_long hopt, hvalue, addOption_eq_ok hadd]
  | flag opt =>
    obtain ⟨hopt, hflag⟩ := h
    obtain ⟨g₁, hadd, hg'⟩ := bind_eq_ok_iff.mp hadds
    cases hg'
    have htext : (Argument.flag opt).text.toList = '-' :: '-' :: (opt.long.toList ++ []) := by
      simp [Argument.text]
    rw [add_long rfl htext stops_nil]
    simp [addLong, long?_long hopt, hflag, addOption_eq_ok hadd]
  | letters opts =>
    obtain ⟨hne, hopts⟩ := h
    have hletters := addShorts_letters hopts hadds
    obtain ⟨opt, opts, rfl⟩ := List.exists_cons_of_ne_nil hne
    obtain ⟨-, -, hshort⟩ := hopts opt List.mem_cons_self
    obtain ⟨c, hc⟩ := Option.isSome_iff_exists.mp hshort
    -- letters are no dashes: the argument is not read as a long name
    have hdash : c ≠ '-' := by
      rintro rfl
      cases opt <;> cases hc
    have htext : (Argument.letters (opt :: opts)).text.toList =
        '-' :: c :: opts.filterMap Opt.short? := by
      simp [Argument.text, hc]
    rw [List.filterMap_cons_some hc] at hletters
    rw [← hletters]
    simp [add, htext, hdash]

/-- The run over the arguments of a command. -/
theorem foldlM_add_texts (h : ∀ a ∈ args, a.StandsOn level)
    (hadds : g.adds (args.flatMap Argument.given) = .ok g') :
    (args.map Argument.text).foldlM (Reading.add level) { given := g } = .ok { given := g' } := by
  induction args generalizing g with
  | nil =>
    cases hadds
    rfl
  | cons a args ih =>
    rw [List.flatMap_cons, Given.adds_append] at hadds
    obtain ⟨g₁, hfirst, hrest⟩ := bind_eq_ok_iff.mp hadds
    rw [List.map_cons, List.foldlM_cons, add_text (h a List.mem_cons_self) hfirst]
    exact ih (fun a hm => h a (List.mem_cons_of_mem _ hm)) hrest

/-- After two dashes comes the path, whatever it looks like. -/
theorem foldlM_add_path {path : String} (hlevel : level.takesPath = true) (hg : g.path = none) :
    ["--", path].foldlM (Reading.add level) { given := g } =
      .ok { given := g, pending := some (.path path), onlyPaths := true } := by
  have hdashes : Reading.add level { given := g } "--" = .ok { given := g, onlyPaths := true } :=
    rfl
  rw [List.foldlM_cons, hdashes]
  show Reading.add level { given := g, onlyPaths := true } path >>= pure = _
  simp [add, addWord, addPath, settle, hlevel, hg]

end Reading

/-- An argument that gives options starts with a dash and does not end there. -/
theorem exists_text_eq (h : a.StandsOn level) : ∃ c s, a.text.toList = '-' :: c :: s := by
  cases a with
  | value opt v => exact ⟨'-', opt.long.toList ++ '=' :: v.toList, by simp [Argument.text]⟩
  | flag opt => exact ⟨'-', opt.long.toList, by simp [Argument.text]⟩
  | letters opts =>
    obtain ⟨hne, hopts⟩ := h
    obtain ⟨opt, opts, rfl⟩ := List.exists_cons_of_ne_nil hne
    obtain ⟨c, hc⟩ := Option.isSome_iff_exists.mp (hopts opt List.mem_cons_self).2.2
    exact ⟨c, opts.filterMap Opt.short?, by simp [Argument.text, hc]⟩

/-- What starts with a dash is not the name of a command. -/
theorem readGlobal_dash {arg : String} {c : Char} {s : List Char} {words : List String}
    (harg : arg.toList = '-' :: c :: s) :
    readGlobal { given := g } (arg :: words) = Reading.add .global { given := g } arg >>=
      (readGlobal · words) := by
  have hhelp : arg ≠ helpName := by
    rintro rfl
    cases harg
  have hlevel : Level.named? arg = none := by
    unfold Level.named?
    split
    · cases harg
    · cases harg
    · cases harg
    · cases harg
    · rfl
  simp only [readGlobal, Reading.awaitsValue, hhelp, hlevel, harg, Bool.false_eq_true, if_false]

/-- The run over the arguments in front of a command. -/
theorem readGlobal_texts {word : String} {words : List String} (h : ∀ a ∈ args, a.StandsOn .global)
    (hadds : g.adds (args.flatMap Argument.given) = .ok g')
    (hword : Level.named? word = some level) :
    readGlobal { given := g } (args.map Argument.text ++ word :: words) =
      .ok ({ given := g' }, some (level, words)) := by
  induction args generalizing g with
  | nil =>
    cases hadds
    exact readGlobal_command rfl rfl hword
  | cons a args ih =>
    obtain ⟨c, s, htext⟩ := exists_text_eq (h a List.mem_cons_self)
    rw [List.flatMap_cons, Given.adds_append] at hadds
    obtain ⟨g₁, hfirst, hrest⟩ := bind_eq_ok_iff.mp hadds
    rw [List.map_cons, List.cons_append, readGlobal_dash htext,
      Reading.add_text (h a List.mem_cons_self) hfirst]
    exact ih (fun a hm => h a (List.mem_cons_of_mem _ hm)) hrest

/-- Arguments of a command and a path after two dashes. -/
theorem readCommand_texts {path : String} (h : ∀ a ∈ args, a.StandsOn level)
    (hadds : Given.adds {} (args.flatMap Argument.given) = .ok g) (hlevel : level.takesPath = true)
    (hg : g.path = none) (hpath : path ≠ "") (hconflicts : g.hasConflict = false) :
    readCommand level (args.map Argument.text ++ ["--", path]) =
      .ok { g with path := some path } := by
  have hfinish : Reading.finish { given := g, pending := some (.path path), onlyPaths := true } =
      .ok { g with path := some path } := by
    simp [Reading.finish, Reading.settle, Given.addPath, Given.single, Given.path?, hg, hpath]
  have hread : (args.map Argument.text ++ ["--", path]).foldlM (Reading.add level) {} =
      .ok { given := g, pending := some (.path path), onlyPaths := true } := by
    rw [List.foldlM_append, Reading.foldlM_add_texts h hadds]
    exact Reading.foldlM_add_path hlevel hg
  have hchecked : checkConflicts { g with path := some path } = .ok () := by
    have hconflict : Given.hasConflict { g with path := some path } = g.hasConflict := rfl
    rw [checkConflicts, hconflict, hconflicts]
    rfl
  exact bind_eq_ok_iff.mpr ⟨_, hread,
    bind_eq_ok_iff.mpr ⟨_, hfinish, bind_eq_ok_iff.mpr ⟨(), hchecked, rfl⟩⟩⟩

end CommandLine

/-! ## Requests to check -/

/-- What a user may want of a check. What is `none`, `false`, zero or empty is left out. -/
structure CheckWish where
  path : String
  types : Option (List String) := none
  recursive : Bool := false
  exclude : List String := []
  format : Option ReportFormat := none
  output : Option String := none
  noSyntax : Bool := false
  shell : Option String := none
  jobs : Option Nat := none
  verbose : Nat := 0
  quiet : Bool := false
  color : Option ColorMode := none
  config : Option String := none
  noConfig : Bool := false

namespace CheckWish

open CommandLine

/-- The request that is wanted. -/
def request (w : CheckWish) : Request where
  verbose := w.verbose
  quiet := w.quiet
  color := w.color.getD .auto
  config := w.config
  noConfig := w.noConfig
  command := .check
    { path := w.path, types := w.types, recursive := w.recursive, exclude := w.exclude
      format := w.format.getD .text, output := w.output, noSyntax := w.noSyntax, shell :=
        w.shell, jobs := w.jobs }

/-- What a command line can ask for. -/
structure Expressible (w : CheckWish) : Prop where
  path : w.path ≠ ""
  types : w.types ≠ some []
  commas : ∀ name ∈ w.types.getD [], ',' ∉ name.toList
  output : w.output ≠ some ""
  config : w.config ≠ some ""
  jobs : ∀ n ∈ w.jobs, 1 ≤ n ∧ n ≤ 65535
  verbose : w.verbose ≤ 255
  not_quiet_verbose : ¬(w.quiet = true ∧ 0 < w.verbose)
  not_config_noConfig : ¬(w.config.isSome = true ∧ w.noConfig = true)

/-- The values with which an option is given; all types stand in one value. -/
def values (w : CheckWish) : Opt → List String
  | .verbose => List.replicate w.verbose ""
  | .quiet => List.replicate w.quiet.toNat ""
  | .color => (w.color.map ColorMode.name).toList
  | .config => w.config.toList
  | .noConfig => List.replicate w.noConfig.toNat ""
  | .types => (w.types.map (String.intercalate ",")).toList
  | .recursive => List.replicate w.recursive.toNat ""
  | .exclude => w.exclude
  | .format => (w.format.map ReportFormat.name).toList
  | .output => w.output.toList
  | .noSyntax => List.replicate w.noSyntax.toNat ""
  | .shell => w.shell.toList
  | .jobs => (w.jobs.map decimalText).toList
  | .help | .version | .checkOnly | .program | .force => []

/-- The arguments in front of the command and behind it give what is wanted, in whatever order. -/
structure Writes (w : CheckWish) (before after : List Argument) : Prop where
  front : ∀ a ∈ before, a.StandsOn .global
  back : ∀ a ∈ after, a.StandsOn .check
  /-- Each option is given with its values in their order, and as often as it is wanted. -/
  options : ∀ opt ≠ .types, valuesOf opt ((before ++ after).flatMap Argument.given) = w.values opt
  /-- The types may be divided over several values. -/
  types : ∃ groups : List (List String), [] ∉ groups ∧ groups.flatten = w.types.getD [] ∧
    valuesOf .types ((before ++ after).flatMap Argument.given) = groups.map (String.intercalate ",")
  /-- The flags for the verbosity stand on one side of the command. -/
  verbose : valuesOf .verbose (before.flatMap Argument.given) = [] ∨
    valuesOf .verbose (after.flatMap Argument.given) = []

/-- The command line with these arguments; the path comes last, behind two dashes. -/
def commandLine (w : CheckWish) (before after : List Argument) : List String :=
  before.map Argument.text ++ "check" :: (after.map Argument.text ++ ["--", w.path])

variable {w : CheckWish} {before after : List Argument} {opt : Opt} {value : String}

/-! ## Values that are wanted -/

theorem color?_name (mode : ColorMode) : color? mode.name = some mode := by
  cases mode <;> rfl

theorem named?_name (format : ReportFormat) : ReportFormat.named? format.name = some format := by
  cases format <;> decide

theorem path?_eq_some (h : value ≠ "") : Given.path? value = some value :=
  if_neg h

theorem length_values_le (w : CheckWish) (h : opt.IsSingle) : (w.values opt).length ≤ 1 := by
  cases opt with
  | verbose | types | exclude => cases h
  | quiet | noConfig | recursive | noSyntax => simp [values, Bool.toNat_le]
  | color | config | format | output | shell | jobs => exact Option.length_toList_le
  | help | version | checkOnly | program | force => simp [values]

namespace Expressible

theorem accepts (hw : w.Expressible) (h : value ∈ w.values opt) : opt.Accepts value := by
  cases opt with
  | help | version => cases h
  | color =>
    obtain ⟨mode, -, rfl⟩ := Option.map_eq_some_iff.mp (Option.mem_toList.mp h)
    exact Option.isSome_iff_exists.mpr ⟨mode, color?_name mode⟩
  | config =>
    have hne : value ≠ "" := fun he => hw.config (he ▸ Option.mem_toList.mp h)
    exact Option.isSome_iff_exists.mpr ⟨value, path?_eq_some hne⟩
  | output =>
    have hne : value ≠ "" := fun he => hw.output (he ▸ Option.mem_toList.mp h)
    exact Option.isSome_iff_exists.mpr ⟨value, path?_eq_some hne⟩
  | format =>
    obtain ⟨format, -, rfl⟩ := Option.map_eq_some_iff.mp (Option.mem_toList.mp h)
    exact Option.isSome_iff_exists.mpr ⟨format, named?_name format⟩
  | jobs =>
    obtain ⟨n, hn, rfl⟩ := Option.map_eq_some_iff.mp (Option.mem_toList.mp h)
    obtain ⟨hlow, hhigh⟩ := hw.jobs n hn
    exact Option.isSome_iff_exists.mpr ⟨n, jobs?_decimalText hlow hhigh⟩
  | _ => trivial

theorem quiet_or_verbose (hw : w.Expressible) : w.values .quiet = [] ∨ w.values .verbose = [] := by
  by_cases hquiet : w.quiet = true
  · right
    simpa [values] using fun h => hw.not_quiet_verbose ⟨hquiet, Nat.pos_of_ne_zero h⟩
  · left
    simpa [values] using hquiet

theorem config_or_noConfig (hw : w.Expressible) :
    w.values .noConfig = [] ∨ w.values .config = [] := by
  by_cases hnoConfig : w.noConfig = true
  · right
    simpa [values] using fun h => hw.not_config_noConfig ⟨h, hnoConfig⟩
  · left
    simpa [values] using hnoConfig

end Expressible

/-! ## What the two sides give -/

theorem mem_options_of_mem_given {level : Level} {args : List Argument}
    (h : ∀ a ∈ args, a.StandsOn level)
    (hm : (opt, value) ∈ args.flatMap Argument.given) : opt ∈ level.options := by
  obtain ⟨a, ha, hm⟩ := List.mem_flatMap.mp hm
  have hstands := h a ha
  cases a with
  | value other v =>
    cases List.mem_singleton.mp hm
    exact hstands.1
  | flag other =>
    cases List.mem_singleton.mp hm
    exact hstands.1
  | letters opts =>
    obtain ⟨other, hother, he⟩ := List.mem_map.mp hm
    cases he
    exact (hstands.2 opt hother).1

namespace Writes

theorem sides (h : w.Writes before after) (opt : Opt) (hopt : opt ≠ .types) :
    valuesOf opt (before.flatMap Argument.given) ++ valuesOf opt (after.flatMap Argument.given) =
      w.values opt := by
  rw [← h.options opt hopt, List.flatMap_append, valuesOf_append]

/-- An option of the command is not given in front of it. -/
theorem valuesOf_before (h : w.Writes before after) (hopt : opt ∉ Level.global.options) :
    valuesOf opt (before.flatMap Argument.given) = [] := by
  refine List.eq_nil_iff_forall_not_mem.mpr fun value hm => hopt ?_
  exact mem_options_of_mem_given h.front (mem_valuesOf_iff.mp hm)

theorem valuesOf_after (h : w.Writes before after) (opt : Opt) (htypes : opt ≠ .types)
    (hopt : opt ∉ Level.global.options) :
    valuesOf opt (after.flatMap Argument.given) = w.values opt := by
  rw [← h.sides opt htypes, h.valuesOf_before hopt, List.nil_append]

theorem fits (hw : w.Expressible) (h : w.Writes before after) :
    Fits (before.flatMap Argument.given ++ after.flatMap Argument.given) := by
  rw [← List.flatMap_append]
  constructor
  · intro opt hsingle
    have htypes : opt ≠ .types := by
      rintro rfl
      exact hsingle
    rw [h.options opt htypes]
    exact length_values_le w hsingle
  · rintro ⟨opt, value⟩ hm
    by_cases htypes : opt = .types
    · subst htypes
      trivial
    · apply hw.accepts
      rw [← h.options opt htypes]
      exact mem_valuesOf_iff.mpr hm

end Writes

theorem not_isEmpty_flag (b : Bool) : (!(List.replicate b.toNat "").isEmpty) = b := by
  cases b <;> rfl

theorem bind_name {α : Type} {v : Option α} {name : α → String} {read : String → Option α}
    (h : ∀ a ∈ v, read (name a) = some a) : (v.map name).bind read = v := by
  cases v with
  | none => rfl
  | some a => exact h a rfl

theorem bind_path? {v : Option String} (h : v ≠ some "") : v.bind Given.path? = v := by
  cases v with
  | none => rfl
  | some path => exact path?_eq_some fun he => h (congrArg some he)

/-- A flag that is given on one of the sides counts. -/
theorem flag_sides {front back : List String} {b : Bool}
    (h : front ++ back = List.replicate b.toNat "") :
    (!back.isEmpty || !front.isEmpty) = b := by
  cases b <;> cases front <;> cases back <;> simp_all

/-- A value that is given on one of the sides counts. -/
theorem value_sides {α : Type} {front back : List String} {v : Option String}
    (read : String → Option α)
    (h : front ++ back = v.toList) : (back.head?.bind read <|> front.head?.bind read) =
      v.bind read := by
  cases v with
  | none => simp_all
  | some v =>
    rcases List.append_eq_singleton_iff.mp h with ⟨rfl, rfl⟩ | ⟨rfl, rfl⟩
    · simp
    · simp

/-- A flag that counts is given on one side, at most 255 times. -/
theorem count_sides {front back : List String} {n : Nat} (h : front ++ back = List.replicate n "")
    (hn : n ≤ 255) (hside : front = [] ∨ back = []) :
    (Given.count back.length <|> Given.count front.length).getD 0 = n := by
  have hlength := congrArg List.length h
  rw [List.length_append, List.length_replicate] at hlength
  have hcount : (Given.count n).getD 0 = n := by
    cases n with
    | zero => rfl
    | succ n => simp only [Given.count, Option.getD_some, maxCount]; omega
  rcases hside with rfl | rfl
  · simpa [Given.count, ← hlength] using hcount
  · simpa [Given.count, ← hlength] using hcount

namespace Writes

theorem collect_types (hw : w.Expressible) (h : w.Writes before after) :
    (Given.collect (after.flatMap Argument.given)).types = w.types := by
  obtain ⟨groups, hne, hflatten, hvalues⟩ := h.types
  rw [List.flatMap_append, valuesOf_append, h.valuesOf_before (by decide),
    List.nil_append] at hvalues
  rw [Given.collect, hvalues]
  exact splitValues_intercalate hw.types hw.commas hne hflatten

/-- What the two sides give together is what is wanted. -/
theorem request_collect (hw : w.Expressible) (h : w.Writes before after) :
    CommandLine.request (.collect (before.flatMap Argument.given))
      { Given.collect (after.flatMap Argument.given) with path := some w.path } .check =
        w.request := by
  have hverbose := count_sides (h.sides .verbose (by decide)) hw.verbose h.verbose
  have hquiet := flag_sides (h.sides .quiet (by decide))
  have hnoConfig := flag_sides (h.sides .noConfig (by decide))
  have hcolor :=
    (value_sides color? (h.sides .color (by decide))).trans
      (bind_name fun mode _ => color?_name mode)
  have hconfig :=
    (value_sides Given.path? (h.sides .config (by decide))).trans (bind_path? hw.config)
  -- all other options stand behind the command
  have hrecursive := h.valuesOf_after .recursive (by decide) (by decide)
  have hexclude := h.valuesOf_after .exclude (by decide) (by decide)
  have hformat := h.valuesOf_after .format (by decide) (by decide)
  have houtput := h.valuesOf_after .output (by decide) (by decide)
  have hnoSyntax := h.valuesOf_after .noSyntax (by decide) (by decide)
  have hshell := h.valuesOf_after .shell (by decide) (by decide)
  have hjobs := h.valuesOf_after .jobs (by decide) (by decide)
  simp only [CommandLine.request, Given.command, request, Request.mk.injEq, Command.check.injEq,
    CheckRequest.mk.injEq]
  refine ⟨hverbose, hquiet, congrArg (·.getD ColorMode.auto) hcolor, hconfig, hnoConfig, rfl,
    h.collect_types hw, ?_⟩
  simp only [Given.collect, hrecursive, hexclude, hformat, houtput, hnoSyntax, hshell, hjobs,
    CheckWish.values, Option.head?_toList, true_and]
  refine ⟨not_isEmpty_flag w.recursive, ?_, bind_path? hw.output, not_isEmpty_flag w.noSyntax, ?_⟩
  · exact congrArg (·.getD ReportFormat.text) (bind_name fun format _ => named?_name format)
  · exact bind_name fun n hn => jobs?_decimalText (hw.jobs n hn).1 (hw.jobs n hn).2

/-- No side has options that exclude each other. -/
theorem hasConflict_sides (hw : w.Expressible) (h : w.Writes before after) :
    (Given.collect (before.flatMap Argument.given)).hasConflict = false ∧
      (Given.collect (after.flatMap Argument.given)).hasConflict = false := by
  have hnil (opt : Opt) (hopt : opt ≠ .types) (hvalues : w.values opt = []) :
      valuesOf opt (before.flatMap Argument.given) = [] ∧
        valuesOf opt (after.flatMap Argument.given) = [] :=
    List.append_eq_nil_iff.mp ((h.sides opt hopt).trans hvalues)
  have hverbosity := hw.quiet_or_verbose.imp (hnil .quiet (by decide)) (hnil .verbose (by decide))
  have hconfig := hw.config_or_noConfig.imp (hnil .noConfig (by decide)) (hnil .config (by decide))
  constructor
  · apply Given.hasConflict_collect
    · exact hverbosity.imp And.left And.left
    · exact hconfig.imp And.left And.left
  · apply Given.hasConflict_collect
    · exact hverbosity.imp And.right And.right
    · exact hconfig.imp And.right And.right

theorem parse_commandLine (hw : w.Expressible) (h : w.Writes before after) :
    parse (w.commandLine before after) = .ok w.request := by
  obtain ⟨hbefore, hafter⟩ := h.hasConflict_sides hw
  have hfits := h.fits hw
  have hread : readGlobal {} (w.commandLine before after) =
      .ok ({ given := .collect (before.flatMap Argument.given) },
        some (.check, after.map Argument.text ++ ["--", w.path])) :=
    readGlobal_texts h.front (Given.adds_eq_collect hfits.left) rfl
  have hcommand :=
    readCommand_texts h.back (Given.adds_eq_collect hfits.right) rfl rfl hw.path hafter
  have hchecked : checkConflicts (.collect (before.flatMap Argument.given)) = .ok () := by
    rw [checkConflicts, hbefore]
    rfl
  exact accepted_iff.mpr ⟨_, _, _, _, _, hread, hcommand, rfl, hchecked,
    (h.request_collect hw).symm⟩

end Writes

/-! ## Every wish can be written -/

/-- The argument that gives an option with a value. -/
def argument (opt : Opt) (v : String) : Argument :=
  if opt.takesValue then .value opt v else .flag opt

/-- The arguments of a wish in the order of the options, all of them behind the command. -/
def arguments (w : CheckWish) : List Argument :=
  Level.check.options.flatMap fun opt => (w.values opt).map (argument opt)

/-- Flags have no values. -/
theorem value_eq_empty (h : opt.takesValue = false) (hm : value ∈ w.values opt) : value = "" := by
  cases opt with
  | verbose | quiet | noConfig | recursive | noSyntax => exact List.eq_of_mem_replicate hm
  | help | version | checkOnly | force => cases hm
  | _ => cases h

theorem given_argument (hm : value ∈ w.values opt) :
    (argument opt value).given = [(opt, value)] := by
  unfold argument
  split
  · rfl
  · next h => rw [value_eq_empty (by simpa using h) hm, Argument.given]

theorem given_arguments (w : CheckWish) : w.arguments.flatMap Argument.given =
    Level.check.options.flatMap fun opt => (w.values opt).map (opt, ·) := by
  rw [arguments, List.flatMap_assoc, List.flatMap_def, List.flatMap_def]
  refine congrArg List.flatten (List.map_congr_left fun opt _ => ?_)
  calc ((w.values opt).map (argument opt)).flatMap Argument.given
      = ((w.values opt).map fun v => [(opt, v)]).flatten := by
        rw [List.flatMap_def, List.map_map]
        exact congrArg List.flatten (List.map_congr_left fun v hm => given_argument hm)
    _ = (w.values opt).map (opt, ·) := by rw [← List.flatMap_def, ← List.map_eq_flatMap]

theorem valuesOf_flatMap {opts : List Opt} (hnodup : opts.Nodup) (values : Opt → List String)
    (opt : Opt) :
    valuesOf opt (opts.flatMap fun other => (values other).map (other, ·)) =
      if opt ∈ opts then values opt else [] := by
  induction opts with
  | nil => rfl
  | cons other opts ih =>
    obtain ⟨hother, hnodup⟩ := List.nodup_cons.mp hnodup
    have hfirst : valuesOf opt ((values other).map (other, ·)) = if other =
        opt then values opt else [] := by
      by_cases h : other = opt
      · subst h
        simp [valuesOf, List.filter_map, Function.comp_def]
      · simp [valuesOf, List.filter_map, Function.comp_def, h]
    rw [List.flatMap_cons, valuesOf_append, hfirst, ih hnodup]
    by_cases h : other = opt
    · subst h
      simp [hother]
    · simp [h, Ne.symm h]

theorem values_eq_nil (w : CheckWish) (h : opt ∉ Level.check.options) : w.values opt = [] := by
  cases opt with
  | version | checkOnly | program | force => rfl
  | _ => exact absurd (by decide) h

theorem writes_arguments (hw : w.Expressible) : w.Writes [] w.arguments where
  front := by simp
  back := by
    intro a ha
    obtain ⟨opt, hopt, ha⟩ := List.mem_flatMap.mp ha
    obtain ⟨v, -, rfl⟩ := List.mem_map.mp ha
    unfold argument
    split
    · next h => exact ⟨hopt, h⟩
    · next h => exact ⟨hopt, by simpa using h⟩
  options := by
    intro opt _
    rw [List.nil_append, given_arguments, valuesOf_flatMap (by decide)]
    split
    · rfl
    · next h => exact (values_eq_nil w h).symm
  types := by
    refine ⟨w.types.toList, ?_, ?_, ?_⟩
    · intro h
      exact hw.types (Option.mem_toList.mp h)
    · cases w.types <;> simp
    · rw [List.nil_append, given_arguments, valuesOf_flatMap (by decide), if_pos (by decide)]
      exact Option.toList_map
  verbose := .inl rfl

/-- A request to check can be written down, and from whatever command line that writes it down it is
read back. -/
theorem parse_written {w : CheckWish} (hw : w.Expressible) :
    (∃ before after, w.Writes before after) ∧
      ∀ before after, w.Writes before after → parse (w.commandLine before after) = .ok w.request :=
  ⟨⟨[], w.arguments, writes_arguments hw⟩, fun _ _ h => h.parse_commandLine hw⟩

/-- Names and values that look like options, and a value with an equals sign of its own. -/
def oddWish : CheckWish where
  path := "--"
  types := some ["-r", "sh", "py"]
  recursive := true
  exclude := ["--types=py", "a,b"]
  format := some .json
  output := some "=r"
  shell := some "check"
  jobs := some 4
  verbose := 3
  color := some .never
  config := some "--no-config"

theorem expressible_oddWish : oddWish.Expressible where
  path := by decide
  types := by decide
  commas := by decide
  output := by decide
  config := by decide
  jobs := by decide
  verbose := by decide
  not_quiet_verbose := by decide
  not_config_noConfig := by decide

/-- The options are mixed; the types are divided, and so are the flags for the verbosity. -/
theorem writes_oddWish : oddWish.Writes
    [.value .config "--no-config"]
    [.value .exclude "--types=py", .letters [.verbose, .recursive, .verbose], .value .types "-r,sh",
      .value .format "json", .value .exclude "a,b", .value .types "py", .flag .verbose,
        .value .output "=r", .value .shell "check",
      .value .jobs "4", .value .color "never"] where
  front := by decide
  back := by decide
  options := by
    intro opt hopt
    cases opt with
    | types => exact absurd rfl hopt
    | jobs => decide +kernel
    | _ => rfl
  types := ⟨[["-r", "sh"], ["py"]], by decide, rfl, by decide +kernel⟩
  verbose := .inl rfl

theorem parse_written_oddWish : oddWish.Expressible ∧
    parse ["--config=--no-config", "check", "--exclude=--types=py", "-vrv", "--types=-r,sh",
      "--format=json", "--exclude=a,b", "--types=py", "--verbose", "--output==r", "--shell=check",
        "--jobs=4", "--color=never", "--", "--"] =
        .ok oddWish.request :=
  ⟨expressible_oddWish, (parse_written expressible_oddWish).2 _ _ writes_oddWish⟩

end CheckWish

end ScriptLint
