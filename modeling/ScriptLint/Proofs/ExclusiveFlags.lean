import ScriptLint.CommandLine.Parser
import ScriptLint.Proofs.Failure

/-!
Options that exclude each other. Main statement: `exclusive_sides`, each side of the command is
checked alone, so a request has options that exclude each other exactly if they stand on different
sides.
-/

namespace ScriptLint

/-- A request that is not both quiet and verbose, and does not name a configuration that it does not
use. -/
def Request.Exclusive (r : Request) : Prop :=
  ¬(r.quiet ∧ 0 < r.verbose) ∧ ¬(r.config.isSome ∧ r.noConfig)

namespace CommandLine

/-! ## What reading a level keeps -/

namespace Reading

variable {P : Given → Prop} {p p' : Reading} {level : Level} {opt : Opt}

/-- A property of what is given that no further option and no path takes away. -/
structure Kept (P : Given → Prop) : Prop where
  option : ∀ {g g' opt value}, P g → g.add opt value = .ok g' → P g'
  path : ∀ {g g' value}, P g → g.addPath value = .ok g' → P g'

theorem settle_keeps (hP : Kept P) (hp : P p.given) (h : p.settle = .ok p') : P p'.given := by
  unfold settle at h
  split at h
  · cases h
    exact hp
  · cases h
  · obtain ⟨g, hg, he⟩ := bind_eq_ok_iff.mp h
    cases he
    exact hP.option hp hg
  · obtain ⟨g, hg, he⟩ := bind_eq_ok_iff.mp h
    cases he
    exact hP.path hp hg

theorem addOption_keeps (hP : Kept P) {value : String} (hp : P p.given)
    (h : p.addOption opt value = .ok p') : P p'.given := by
  obtain ⟨q, hq, h⟩ := bind_eq_ok_iff.mp h
  obtain ⟨g, hg, he⟩ := bind_eq_ok_iff.mp h
  cases he
  exact hP.option (settle_keeps hP hp hq) hg

theorem startOption_keeps (hP : Kept P) (hp : P p.given) (h : p.startOption opt = .ok p') :
    P p'.given := by
  obtain ⟨q, hq, he⟩ := bind_eq_ok_iff.mp h
  have hgiven : P q.given := settle_keeps hP hp hq
  cases he
  exact hgiven

theorem addPath_keeps (hP : Kept P) {value : String} (hp : P p.given)
    (h : p.addPath level value = .ok p') : P p'.given := by
  unfold addPath at h
  extract_lets taken at h
  by_cases htaken : (!level.takesPath || taken) = true
  · rw [if_pos htaken] at h
    cases h
  · rw [if_neg htaken] at h
    obtain ⟨q, hq, he⟩ := bind_eq_ok_iff.mp h
    have hgiven : P q.given := settle_keeps hP hp hq
    cases he
    exact hgiven

theorem addLong_keeps (hP : Kept P) {name : String} {value : Option String} (hp : P p.given)
    (h : p.addLong level name value = .ok p') : P p'.given := by
  unfold addLong at h
  split at h
  · cases h
  split at h
  · split at h
    · exact addOption_keeps hP hp h
    · exact startOption_keeps hP hp h
  split at h
  · cases h
  · exact addOption_keeps hP hp h

theorem addShorts_keeps (hP : Kept P) {letters : List Char} (hp : P p.given)
    (h : p.addShorts level letters = .ok p') : P p'.given := by
  induction letters generalizing p with
  | nil =>
    cases h
    exact hp
  | cons c rest ih =>
    unfold addShorts at h
    split at h
    · cases h
    split at h
    · split at h
      · exact startOption_keeps hP hp h
      · exact addOption_keeps hP hp h
      · exact addOption_keeps hP hp h
    · obtain ⟨q, hq, h⟩ := bind_eq_ok_iff.mp h
      exact ih (addOption_keeps hP hp hq) h

theorem addWord_keeps (hP : Kept P) {word : String} (hp : P p.given)
    (h : p.addWord level word = .ok p') : P p'.given := by
  unfold addWord at h
  split at h
  · split at h
    · exact addPath_keeps hP hp h
    · cases h
      exact hp
  · exact addPath_keeps hP hp h

/-- One argument. -/
theorem add_keeps (hP : Kept P) {arg : String} (hp : P p.given) (h : p.add level arg = .ok p') :
    P p'.given := by
  unfold add at h
  split at h
  · exact addWord_keeps hP hp h
  split at h
  · cases h
    exact hp
  · simp only at h
    split at h
    · exact addLong_keeps hP hp h
    · exact addLong_keeps hP hp h
  · exact addShorts_keeps hP hp h
  · exact addWord_keeps hP hp h

/-- All arguments of a level. -/
theorem foldlM_add_keeps (hP : Kept P) {args : List String} (hp : P p.given)
    (h : args.foldlM (Reading.add level) p = .ok p') : P p'.given := by
  induction args generalizing p with
  | nil =>
    cases h
    exact hp
  | cons arg args ih =>
    rw [List.foldlM_cons] at h
    obtain ⟨q, hq, h⟩ := bind_eq_ok_iff.mp h
    exact ih (add_keeps hP hp hq) h

theorem finish_keeps (hP : Kept P) {g : Given} (hp : P p.given) (h : p.finish = .ok g) : P g := by
  obtain ⟨q, hq, he⟩ := bind_eq_ok_iff.mp h
  cases he
  exact settle_keeps hP hp hq

end Reading

/-! ## The two sides of the command -/

variable {p q : Reading} {arg : String} {args front back : List String} {level : Level}

theorem readGlobal_command (hpaths : p.onlyPaths = false) (hvalue : p.awaitsValue = false)
    (hlevel : Level.named? arg = some level) :
    readGlobal p (arg :: args) = .ok (p, some (level, args)) := by
  have hhelp : arg ≠ helpName := by
    rintro rfl
    cases hlevel
  simp [readGlobal, hpaths, hvalue, hhelp, hlevel]

/-- Where an argument is added, the way from it does not depend on the arguments that follow. -/
theorem exists_added {read : List String → Except Refusal (Reading × Option (Level × List String))}
    {next : Option (Level × List String)}
    (hread : ∀ args', read args' = (p.add .global arg >>= fun p' => readGlobal p' args'))
    (h : read args = .ok (q, next)) :
    ∃ p', p.add .global arg = .ok p' ∧ ∀ args', read args' = readGlobal p' args' := by
  rw [hread] at h
  obtain ⟨p', hp', _⟩ := bind_eq_ok_iff.mp h
  refine ⟨p', hp', fun args' => ?_⟩
  rw [hread, hp']
  rfl

/-- An argument on the first level is the command, or it is added and the arguments after it are
read. -/
theorem readGlobal_cons_cases {next : Option (Level × List String)}
    (h : readGlobal p (arg :: args) = .ok (q, next)) :
    (∃ level, Level.named? arg = some level ∧ p.onlyPaths = false ∧ p.awaitsValue = false ∧ q = p ∧
      next = some (level, args)) ∨
    ∃ p', p.add .global arg = .ok p' ∧ ∀ args', readGlobal p (arg :: args') =
      readGlobal p' args' := by
  cases hpaths : p.onlyPaths with
  | true => simp [readGlobal, hpaths] at h
  | false =>
    cases hvalue : p.awaitsValue with
    | true =>
      right
      exact exists_added (fun args' => by simp [readGlobal, hpaths, hvalue]) h
    | false =>
      by_cases hhelp : arg = helpName
      · simp [readGlobal, hpaths, hvalue, hhelp] at h
      cases hlevel : Level.named? arg with
      | some level =>
        rw [readGlobal_command hpaths hvalue hlevel] at h
        cases h
        exact .inl ⟨level, rfl, rfl, rfl, rfl, rfl⟩
      | none =>
        right
        refine exists_added (fun args' => ?_) h
        simp only [readGlobal, hpaths, hvalue, hhelp, hlevel, Bool.false_eq_true, if_false] at h ⊢
        split at h
        · rfl
        · cases h

/-- What stands before the command is read apart from what follows it. -/
theorem readGlobal_split (h : readGlobal p args = .ok (q, some (level, back))) :
    ∃ front word, args = front ++ word :: back ∧ Level.named? word = some level ∧
      ∀ back', readGlobal p (front ++ word :: back') = .ok (q, some (level, back')) := by
  induction args generalizing p with
  | nil => cases h
  | cons arg args ih =>
    rcases readGlobal_cons_cases h with ⟨level', hlevel, hpaths, hvalue, rfl, hnext⟩ | ⟨p',
      _, hrest⟩
    · cases hnext
      exact ⟨[], arg, rfl, hlevel, fun back' => readGlobal_command hpaths hvalue hlevel⟩
    · obtain ⟨front, word, hargs, hword, hread⟩ := ih ((hrest args).symm.trans h)
      refine ⟨arg :: front, word, by rw [hargs, List.cons_append], hword, fun back' => ?_⟩
      rw [List.cons_append, hrest, hread]

/-- The run over the first level. -/
theorem readGlobal_keeps {P : Given → Prop} {next : Option (Level × List String)}
    (hP : Reading.Kept P) (hp : P p.given) (h : readGlobal p args = .ok (q, next)) : P q.given := by
  induction args generalizing p with
  | nil =>
    cases h
    exact hp
  | cons arg args ih =>
    rcases readGlobal_cons_cases h with ⟨_, _, _, _, rfl, _⟩ | ⟨p', hp', hrest⟩
    · exact hp
    · exact ih (Reading.add_keeps hP hp hp') ((hrest args).symm.trans h)

/-! ## Requests -/

namespace Given

/-- Where the flag is given, it counts at least once. -/
def Counted (g : Given) : Prop :=
  ∀ n, g.verbose = some n → 0 < n

theorem counted_empty : Counted {} := by
  intro n h
  cases h

theorem eq_of_flag {given : Bool} {g g' : Given} (h : flag given g = .ok g') : g' = g := by
  unfold flag at h
  split at h
  · cases h
  · cases h
    rfl

theorem eq_of_single {α : Type} {given value? : Option α} {refusal : Refusal} {set : α → Given}
    {g' : Given} (h : single given refusal value? set = .ok g') : ∃ v, g' = set v := by
  unfold single at h
  split at h
  · cases h
  · split at h
    · cases h
      exact ⟨_, rfl⟩
    · cases h

/-- Only the flag itself changes how often it counts, and it adds one. -/
theorem verbose_add {g g' : Given} {opt : Opt} {value : String} (h : g.add opt value = .ok g') :
    g'.verbose = g.verbose ∨ g'.verbose = some (min maxCount (g.verbose.getD 0 + 1)) := by
  cases opt with
  | help => cases h
  | version => cases h
  | verbose =>
    cases h
    exact .inr rfl
  | types | exclude =>
    cases h
    exact .inl rfl
  | quiet | noConfig | recursive | noSyntax | checkOnly | force =>
    cases eq_of_flag h
    exact .inl rfl
  | color | config | format | output | shell | jobs | program =>
    simp only [add] at h
    obtain ⟨_, rfl⟩ := eq_of_single h
    exact .inl rfl

theorem kept_counted : Reading.Kept Counted where
  option := by
    intro g g' opt value hg h n hn
    rcases verbose_add h with hv | hv
    · exact hg n (hv ▸ hn)
    · rw [hv] at hn
      cases hn
      have hmax : maxCount = 255 := rfl
      omega
  path := by
    intro g g' value hg h
    obtain ⟨_, rfl⟩ := eq_of_single h
    exact hg

end Given

/-- Options that exclude each other, one of them before the command and one after it. -/
def CrossConflict (before after : Request) : Prop :=
  (before.quiet ∧ 0 < after.verbose) ∨ (0 < before.verbose ∧ after.quiet) ∨
    (before.config.isSome ∧ after.noConfig) ∨ (before.noConfig ∧ after.config.isSome)

/-- What stands on a level alone has no options that exclude each other. -/
theorem eq_ok_of_checkConflicts {g : Given} (h : checkConflicts g = .ok ()) :
    ¬(g.quiet ∧ g.verbose.isSome) ∧ ¬(g.noConfig ∧ g.config.isSome) := by
  unfold checkConflicts at h
  split at h
  · cases h
  · next hconflict => simpa [Given.hasConflict] using hconflict

/-- How a command line is accepted: what stands in front of the command and what follows it are read
and checked, each for itself. -/
theorem accepted_iff {args : List String} {r : Request} : parse args = .ok r ↔
    ∃ p level back before after, readGlobal {} args = .ok (p, some (level, back)) ∧
      readCommand level back = .ok after ∧ p.finish = .ok before ∧ checkConflicts before = .ok () ∧
      r = request before after level := by
  unfold parse
  rw [bind_eq_ok_iff]
  constructor
  · rintro ⟨⟨p, command⟩, hread, h⟩
    cases command with
    | none =>
      obtain ⟨before, _, he⟩ := bind_eq_ok_iff.mp h
      cases he
    | some command =>
      obtain ⟨after, hafter, h⟩ := bind_eq_ok_iff.mp h
      obtain ⟨before, hbefore, h⟩ := bind_eq_ok_iff.mp h
      obtain ⟨_, hcheck, he⟩ := bind_eq_ok_iff.mp h
      cases he
      exact ⟨p, _, _, before, after, hread, hafter, hbefore, hcheck, rfl⟩
  · rintro ⟨p, level, back, before, after, hread, hafter, hbefore, hcheck, rfl⟩
    refine ⟨_, hread, bind_eq_ok_iff.mpr ⟨after, hafter, bind_eq_ok_iff.mpr ⟨before, hbefore, ?_⟩⟩⟩
    exact bind_eq_ok_iff.mpr ⟨(), hcheck, rfl⟩

theorem readCommand_eq_ok {g : Given} (h : readCommand level args = .ok g) :
    g.Counted ∧ checkConflicts g = .ok () := by
  obtain ⟨p, hp, h⟩ := bind_eq_ok_iff.mp h
  obtain ⟨g', hg', h⟩ := bind_eq_ok_iff.mp h
  obtain ⟨_, hcheck, he⟩ := bind_eq_ok_iff.mp h
  cases he
  have hcounted : p.given.Counted :=
    Reading.foldlM_add_keeps Given.kept_counted Given.counted_empty hp
  exact ⟨Reading.finish_keeps Given.kept_counted hcounted hg', hcheck⟩

section Sides

variable {before after : Given}

theorem Given.Counted.getD_pos {g : Given} (h : g.Counted) :
    0 < g.verbose.getD 0 ↔ g.verbose.isSome := by
  cases hv : g.verbose with
  | none => simp
  | some n => simpa using h n hv

theorem request_verbose_pos (hb : before.Counted) (ha : after.Counted) :
    0 < (request before after level).verbose ↔ after.verbose.isSome ∨ before.verbose.isSome := by
  rw [← ha.getD_pos, ← hb.getD_pos]
  have hpos : ∀ n, after.verbose = some n → 0 < n := ha
  cases hv : after.verbose with
  | none => simp [request, hv]
  | some n => simp [request, hv, hpos n hv]

/-- When a request has options that exclude each other. -/
theorem exclusive_request_iff (hb : before.Counted) (ha : after.Counted) :
    (request before after level).Exclusive ↔
      ¬((after.quiet ∨ before.quiet) ∧ (after.verbose.isSome ∨ before.verbose.isSome)) ∧
      ¬((after.config.isSome ∨ before.config.isSome) ∧ (after.noConfig ∨ before.noConfig)) := by
  rw [Request.Exclusive, request_verbose_pos hb ha]
  simp [request, Option.isSome_or]

/-- When what is given before the command excludes what is given after it. -/
theorem crossConflict_iff (hb : before.Counted) (ha : after.Counted) :
    CrossConflict (request before {} level) (request {} after level) ↔
      (before.quiet ∧ after.verbose.isSome) ∨ (before.verbose.isSome ∧ after.quiet) ∨
      (before.config.isSome ∧ after.noConfig) ∨ (before.noConfig ∧ after.config.isSome) := by
  rw [CrossConflict, request_verbose_pos hb Given.counted_empty,
    request_verbose_pos Given.counted_empty ha]
  simp [request]

end Sides

/-- Both sides of the command are accepted alone, and then options of one side do not exclude each
other. The whole request has options that exclude each other exactly if they stand on different
sides. -/
theorem exclusive_sides {args : List String} {r : Request} (h : parse args = .ok r) :
    ∃ front word back before after, args = front ++ word :: back ∧ (Level.named? word).isSome ∧
      parse (front ++ [word]) = .ok before ∧ parse (word :: back) = .ok after ∧
      before.Exclusive ∧ after.Exclusive ∧ (¬r.Exclusive ↔ CrossConflict before after) := by
  obtain ⟨p, level, back, before, after, hread, hafter, hbefore, hcheck, rfl⟩ := accepted_iff.mp h
  obtain ⟨front, word, hargs, hword, hsplit⟩ := readGlobal_split hread
  have hfront : parse (front ++ [word]) = .ok (request before {} level) :=
    accepted_iff.mpr ⟨p, level, [], before, {}, hsplit [], rfl, hbefore, hcheck, rfl⟩
  have hback : parse (word :: back) = .ok (request {} after level) :=
    accepted_iff.mpr ⟨{}, level, back, {}, after, readGlobal_command rfl rfl hword, hafter, rfl,
      rfl, rfl⟩
  have hb : before.Counted := Reading.finish_keeps Given.kept_counted
    (readGlobal_keeps Given.kept_counted Given.counted_empty hread) hbefore
  obtain ⟨ha, hcheck'⟩ := readCommand_eq_ok hafter
  have hbeforeAlone := eq_ok_of_checkConflicts hcheck
  have hafterAlone := eq_ok_of_checkConflicts hcheck'
  refine ⟨front, word, back, _, _, hargs, by simp [hword], hfront, hback, ?_, ?_, ?_⟩
  · rw [exclusive_request_iff hb Given.counted_empty]
    simpa [and_comm] using hbeforeAlone
  · rw [exclusive_request_iff Given.counted_empty ha]
    simpa [and_comm] using hafterAlone
  · rw [exclusive_request_iff hb ha, crossConflict_iff hb ha]
    grind

/-- A quiet run that is verbose after its command. -/
def quietVerbose : Request :=
  { verbose := 1, quiet := true, command := .check {} }

theorem parse_quietVerbose : parse ["-q", "check", "-v"] = .ok quietVerbose := by rfl

theorem exclusive_sides_quietVerbose : parse ["-q", "check", "-v"] = .ok quietVerbose ∧
    ∃ front word back before after, ["-q", "check", "-v"] = front ++ word :: back ∧
      (Level.named? word).isSome ∧ parse (front ++ [word]) = .ok before ∧
      parse (word :: back) = .ok after ∧ before.Exclusive ∧ after.Exclusive ∧
      (¬quietVerbose.Exclusive ↔ CrossConflict before after) :=
  ⟨parse_quietVerbose, exclusive_sides parse_quietVerbose⟩

/-- Not every accepted command line is free of options that exclude each other. -/
theorem not_exclusive_quietVerbose : ¬∀ args r, parse args = .ok r → r.Exclusive := by
  intro h
  have hexclusive : quietVerbose.Exclusive := h _ _ parse_quietVerbose
  exact hexclusive.1 ⟨rfl, by decide⟩

end CommandLine

end ScriptLint
