import ScriptLint.Proofs.Beside
import ScriptLint.Proofs.Workers

/-!
Steps on two trees of which the second one has one more file. A step that is not given this file
takes the same course in both trees. Main statements: `Alike.bind`, such steps may follow each
other, and `Alike.triple`, workers may take them.
-/

namespace ScriptLint

open ScriptLint.Action

namespace FileTree

/-- Two trees have the same entries but for the bytes and the permission bits of their files. -/
structure SameShape (t t' : FileTree) : Prop where
  grows : t.Grows t'
  shrinks : t'.Grows t

variable {t t' s s' : FileTree} {c cwd k l here : Location} {links : Nat} {names : List (List Char)}
  {path : String}

theorem exists_get?_of_mem {entry : Location × Entry} (h : entry ∈ t.entries) :
    ∃ e, t.get? entry.1 = some e := by
  rw [get?]
  split
  · exact ⟨_, rfl⟩
  · refine Option.ne_none_iff_exists'.mp fun hnone => ?_
    exact absurd (List.lookup_eq_none_iff.mp hnone entry h) (by simp)

namespace SameShape

theorem refl (t : FileTree) : t.SameShape t :=
  ⟨.refl t, .refl t⟩

theorem trans (h : t.SameShape t') (h' : t'.SameShape s) : t.SameShape s :=
  ⟨h.grows.trans h'.grows, h'.shrinks.trans h.shrinks⟩

variable (h : t.SameShape s)
include h

theorem get?_none (hk : t.get? k = none) : s.get? k = none := by
  cases hs : s.get? k with
  | none => rfl
  | some e =>
    obtain ⟨e', he', _⟩ := h.shrinks k e hs
    cases hk.symm.trans he'

/-- Where names lead does not depend on what is in the files. -/
theorem follow_eq (links : Nat) (here : Location) (names : List (List Char)) :
    s.follow links here names = t.follow links here names := by
  fun_induction t.follow links here names with
  | case1 => exact follow_nil
  | case2 links here name rest hf ih => rw [follow_filler hf, ih]
  | case3 links here rest _ ih => rw [follow_parent, ih]
  | case4 links here name rest hf hp hs => exact follow_long hf hp hs
  | case5 links here name rest hf hp hs next hn hempty =>
    rw [follow_name hf hp hs, h.get?_none hn]
    exact if_pos hempty
  | case6 links here name rest hf hp hs next hn hempty =>
    rw [follow_name hf hp hs, h.get?_none hn]
    exact if_neg hempty
  | case7 links here name rest hf hp hs next hn ih =>
    rw [follow_name hf hp hs, h.grows.directory hn, ih]
  | case8 links here name rest hf hp hs next bytes mode hn hempty =>
    obtain ⟨bytes', mode', hfile⟩ := h.grows.file hn
    rw [follow_name hf hp hs, hfile]
    exact if_pos hempty
  | case9 links here name rest hf hp hs next bytes mode hn hempty =>
    obtain ⟨bytes', mode', hfile⟩ := h.grows.file hn
    rw [follow_name hf hp hs, hfile]
    exact if_neg hempty
  | case10 here name rest hf hp hs next target hn => rw [follow_name hf hp hs, h.grows.link hn]
  | case11 here name rest hf hp hs next target hn links start ih =>
    rw [follow_name hf hp hs, h.grows.link hn]
    exact ih

theorem spot_eq (cwd : Location) (path : String) : s.spot cwd path = t.spot cwd path := by
  simp only [spot, followFrom, h.follow_eq]

theorem locate_eq (cwd : Location) (path : String) : s.locate cwd path = t.locate cwd path := by
  rw [locate, locate, h.spot_eq]

theorem wellFormed (hw : t.WellFormed) : s.WellFormed := by
  have hentry {entry : Location × Entry} (hm : entry ∈ s.entries) :
      ∃ e, t.get? entry.1 = some e := by
    obtain ⟨e, he⟩ := exists_get?_of_mem hm
    obtain ⟨e', he', _⟩ := h.shrinks _ e he
    exact ⟨e', he'⟩
  constructor
  · intro entry hm
    obtain ⟨e, he⟩ := hentry hm
    exact hw.isName_of_get? he
  · intro entry hm
    obtain ⟨e, he⟩ := hentry hm
    exact h.grows.directory (hw.get?_dropLast he)

end SameShape

/-- Trees on a disk of which the second one has one more file. -/
structure Twins (c : Location) (t t' : FileTree) : Prop where
  beside : Beside c t t'
  wellFormed : t.WellFormed
  wellFormed' : t'.WellFormed

end FileTree

/-! ## Steps that take the same course in both trees -/

open FileTree (Beside Twins SameShape)

/-- Two runs of a step come to the same, and have changed at most what is in files. -/
structure Ran {α : Type} (c : Location) (t t' : FileTree) (ran ran' : α × FileTree) : Prop where
  answer : ran'.1 = ran.1
  beside : Beside c ran.2 ran'.2
  shape : t.SameShape ran.2
  shape' : t'.SameShape ran'.2

theorem FileTree.Twins.next {α : Type} {c : Location} {t t' : FileTree} {ran ran' : α × FileTree}
    (h : Twins c t t') (hran : Ran c t t' ran ran') : Twins c ran.2 ran'.2 :=
  ⟨hran.beside, hran.shape.wellFormed h.wellFormed, hran.shape'.wellFormed h.wellFormed'⟩

/-- The step takes the same course in both trees, if none of the paths given to it leads to the
file. -/
def Alike {α : Type} (cwd c : Location) (given : List String) (x : StateM FileTree α) : Prop :=
  ∀ t t', Twins c t t' → (∀ path ∈ given, t'.locate cwd path ≠ .ok c) →
    Ran c t t' (x.run t) (x.run t')

/-- Programs that overlook a file in their directory, unless they are given a path to it. They
change at most what is in files. -/
structure Overlook (cwd c : Location) (programs : Programs) : Prop where
  version : ∀ program, Alike cwd c [] (programs program ["--version"])
  file : ∀ program options path, Alike cwd c [path] (programs program (options ++ [path]))

namespace Alike

variable {α β : Type} {cwd c : Location} {given given' : List String} {x : StateM FileTree α}

theorem mono (h : Alike cwd c given x) (hg : given ⊆ given') : Alike cwd c given' x :=
  fun t t' ht hgiven => h t t' ht fun path hm => hgiven path (hg hm)

theorem pure (a : α) : Alike cwd c given (Pure.pure a : StateM FileTree α) :=
  fun t t' ht _ => ⟨rfl, ht.beside, .refl t, .refl t'⟩

theorem bind {next : α → StateM FileTree β} (hx : Alike cwd c given x)
    (hn : ∀ a, Alike cwd c given (next a)) :
    Alike cwd c given (x >>= next) := by
  intro t t' ht hgiven
  have hran := hx t t' ht hgiven
  have hgiven' (path) (hm : path ∈ given) : (x.run t').2.locate cwd path ≠ .ok c := by
    rw [hran.shape'.locate_eq]
    exact hgiven path hm
  have hnext := hn (x.run t).1 _ _ (ht.next hran) hgiven'
  show Ran c t t' (((next (x.run t).1).run (x.run t).2)) ((next (x.run t').1).run (x.run t').2)
  rw [hran.answer]
  exact ⟨hnext.answer, hnext.beside, hran.shape.trans hnext.shape, hran.shape'.trans hnext.shape'⟩

theorem orFail {ε : Type} {x : StateM FileTree (Except ε α)} {failure : ε → Failure}
    (hx : Alike cwd c given x) :
    Alike cwd c given (ExceptT.run (orFail x failure)) := by
  refine hx.bind fun result => ?_
  cases result with
  | ok a => exact pure _
  | error e => exact pure _

theorem action_bind {x : Action α} {next : α → Action β} (hx : Alike cwd c given (ExceptT.run x))
    (hn : ∀ a, Alike cwd c given (ExceptT.run (next a))) : Alike cwd c given
      (ExceptT.run (x >>= next)) := by
  rw [ExceptT.run_bind]
  refine hx.bind fun result => ?_
  cases result with
  | ok a => exact hn a
  | error f => exact pure _

end Alike

/-! ## Workers in both trees -/

/-- What two runs on twins have come to: the trees are twins still, and at most what is in files has
changed. -/
structure Onward (c : Location) (t t' : FileTree) (w : FileTree × FileTree) : Prop where
  twins : Twins c w.1 w.2
  shape : t.SameShape w.1
  shape' : t'.SameShape w.2

namespace Onward

variable {α : Type} {cwd c : Location} {t t' : FileTree} {given : List String}

theorem refl (h : Twins c t t') : Onward c t t' (t, t') :=
  ⟨h, .refl t, .refl t'⟩

theorem next {w : FileTree × FileTree} {ran ran' : α × FileTree} (h : Onward c t t' w)
    (hran : Ran c w.1 w.2 ran ran') : Onward c t t' (ran.2, ran'.2) :=
  ⟨h.twins.next hran, h.shape.trans hran.shape, h.shape'.trans hran.shape'⟩

/-- A step that does nothing to the files and comes to the same in both trees. -/
theorem triple_look {f : FileTree → α} (hf : ∀ w, Onward c t t' w → f w.2 = f w.1) :
    Logic.ofTwo.triple (Onward c t t') (do return f (← get)) fun _ => Onward c t t' :=
  fun _ _ h => ⟨hf _ h, rfl, h⟩

theorem triple_say (entries : List LogEntry) :
    Logic.ofTwo.triple (Onward c t t') (Traced.say entries) fun _ => Onward c t t' :=
  fun _ _ h => ⟨rfl, rfl, h⟩

end Onward

/-- A call of a program that is told about. -/
theorem Alike.triple {α : Type} {cwd c : Location} {t t' : FileTree} {given : List String}
    {x : StateM FileTree α}
    (hx : Alike cwd c given x) (hgiven : ∀ path ∈ given, t'.locate cwd path ≠ .ok c)
    (events : List Event) :
    Logic.ofTwo.triple (Onward c t t') (do Traced.tell events; x) fun _ => Onward c t t' := by
  intro s s' h
  have hran : Ran c s s' (x.run s) (x.run s') := hx s s' h.twins fun path hm => by
    rw [h.shape'.locate_eq]
    exact hgiven path hm
  rw [Traced.runOn_told, Traced.runOn_told, Traced.eventsOn_told, Traced.eventsOn_told]
  exact ⟨hran.answer, rfl, h.next hran⟩

namespace Overlook

variable {cwd c : Location} {given : List String} {programs : Programs}
  (ho : Overlook cwd c programs)
include ho

/-! ## The calls of the commands -/

theorem tryShell (shell : Option String) :
    Alike cwd c [] (ExceptT.run (tryShell programs shell)) := by
  cases shell with
  | none => exact .pure _
  | some name => exact (ho.version name).orFail.action_bind fun _ => .pure _

theorem validate (shell : String) {path : String} (hm : path ∈ given) :
    Alike cwd c given (Shell.validate programs shell path) :=
  ((ho.file shell ["-n"] path).mono (by simpa using hm)).bind fun _ => .pure _

theorem formatterVersion (formatter : FormatterProgram) :
    Alike cwd c [] (ExceptT.run (formatter.version programs)) :=
  (ho.version formatter.program).orFail.action_bind fun _ => .pure _

theorem formatterRun (formatter : FormatterProgram) (mode : String) {path : String}
    (hm : path ∈ given) :
    Alike cwd c given (formatter.run programs mode path) := by
  have hrun : Alike cwd c given
      (programs formatter.program ((formatter.options ++ [mode]) ++ [path])) :=
    (ho.file formatter.program (formatter.options ++ [mode]) path).mono (by simpa using hm)
  rwa [List.append_assoc] at hrun

theorem needsFormat (formatter : FormatterProgram) {path : String} (hm : path ∈ given) :
    Alike cwd c given ((formatter.toFormatter programs).needsFormat path) :=
  (ho.formatterRun formatter "-d" hm).bind fun _ => .pure _

theorem write (formatter : FormatterProgram) {path : String} (hm : path ∈ given) :
    Alike cwd c given ((formatter.toFormatter programs).write path) :=
  (ho.formatterRun formatter "-w" hm).bind fun _ => .pure _

end Overlook

end ScriptLint
