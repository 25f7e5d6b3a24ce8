import ScriptLint.Proofs.CheckRun
import ScriptLint.Proofs.Disabling
import ScriptLint.Proofs.Scan

/-!
Which scripts a check run hands to its shell. Whether there is a shell is settled from the text of
the path, before the path is followed. Main statement: `mem_handed_iff`, a shell script escapes
exactly where neither the types nor the text of the path show that there are shell scripts.
-/

namespace ScriptLint

open ScriptLint.Action

/-- A run may see shell scripts exactly if the types or the text of the path say so. -/
theorem maySeeShell_iff {filter : Filter} {path : String} :
    maySeeShell filter path = true ↔
      "sh" ∈ filter.extensions ∨ Path.extension? path = some "sh" := by
  simp [maySeeShell]

namespace Prepared

variable (p : Prepared) (host : Host) (c : CheckRequest)

/-- The paths that the run hands to its shell, in the order in which it does. -/
def handed : List String :=
  handedPaths (p.events host c)

/-- The shell reads what is handed to it, and nothing else happens to the files. -/
theorem finalTree_eq :
    p.finalTree host c =
      match p.shell c with
      | none => p.tree
      | some shell => ((shellEffects host.programs shell (p.handed host c)).run p.tree).2 := by
  have hreplays : Replays host.programs (p.shell c) p.tree (p.events host c, p.finalTree host c) :=
    inspectAll_replays host p.config (p.shell c) c.jobs p.candidates p.tree
  revert hreplays
  cases p.shell c with
  | none => exact fun h => h.2
  | some shell => exact id

variable {p host c} {cand : Candidate} {r : FileResult}

/-- Without a shell nothing is handed to one. -/
theorem handed_of_none (hs : p.shell c = none) : p.handed host c = [] := by
  have hreplays := inspectAll_replays host p.config (p.shell c) c.jobs p.candidates p.tree
  have hnone : Replays host.programs none p.tree (p.events host c, p.finalTree host c) :=
    hs ▸ hreplays
  exact hnone.1

/-- The result on a candidate. -/
theorem resultAmong_of_mem_zip (h : (cand, r) ∈ p.candidates.zip (p.results host c)) :
    ResultAmong host p.config (p.shell c) (p.events host c) cand r :=
  List.forall₂_zip (inspectAll_results host p.config (p.shell c) c.jobs p.candidates p.tree) h

/-- A run that wants its syntax checked has a shell exactly if it may see shell scripts. -/
theorem isSome_shell (he : p.config.syntaxCheck.enabled = true) (hn : c.noSyntax = false) :
    (p.shell c).isSome = true ↔ maySeeShell p.filter c.path = true := by
  rw [shell, chosenShell?, he, hn]
  cases maySeeShell p.filter c.path with
  | true => exact ⟨fun _ => rfl, fun _ => rfl⟩
  | false => exact ⟨nofun, nofun⟩

end Prepared

/-- The result is that of a script that has been read and is not ignored. -/
def FileResult.IsChecked (r : FileResult) : Prop :=
  r.ignored = false ∧ ∀ f ∈ r.findings, f.check ≠ unreadable

section Results

variable {host : Host} {config : Config} {shell : Option String} {events : List Event}
  {c : Candidate} {r : FileResult}

/-- A shell script that is checked has been handed to the shell, if there is one. -/
theorem ResultAmong.mem_handedPaths (h : ResultAmong host config shell events c r)
    (hr : r.IsChecked)
    (hx : c.extension = "sh") (hd : "syntax" ∉ config.checks.disabled) (hs : shell.isSome = true) :
    c.path ∈ handedPaths events := by
  cases h with
  | unread ht => exact absurd rfl (hr.2 _ (List.mem_singleton_self _))
  | ignored ht hi => cases hr.1
  | checked ht hi hm ha =>
    obtain ⟨name, rfl⟩ := Option.isSome_iff_exists.mp hs
    obtain ⟨_, _, hcalled⟩ := ha
    refine List.mem_filterMap.mpr ⟨_, hcalled name ?_, rfl⟩
    exact Inspection.reader?_eq_some_iff.mpr ⟨rfl, hx, hd⟩

/-- Without a shell no finding is one of the syntax check. -/
theorem ResultAmong.check_ne_syntax (h : ResultAmong host config none events c r) :
    ∀ f ∈ r.findings, f.check ≠ "syntax" := by
  cases h with
  | unread ht =>
    intro f hf
    rw [List.mem_singleton.mp hf]
    exact unreadable_ne_name .shellSyntax
  | ignored ht hi => exact nofun
  | checked ht hi hm ha =>
    intro f hf he
    obtain ⟨check, hm, hf⟩ := List.mem_flatMap.mp hf
    have hname : check.name = Check.shellSyntax.name :=
      (Check.check_of_mem_evaluate hf).symm.trans he
    cases Check.name_injective hname
    obtain ⟨t, rfl, -⟩ := ha
    have hv := (Settings.shellSyntax_mem_checksFor.mp hm).2.2
    have hreader : Inspection.reader? config none c = none := by
      cases hr : Inspection.reader? config none c with
      | none => rfl
      | some name => exact (Inspection.reader?_eq_some_iff.mp hr).1.symm
    rw [hreader] at hv
    cases hv

end Results

section Gate

variable {host : Host} {r : Request} {c : CheckRequest} {t : FileTree} {p : Prepared}
  {cand : Candidate}

/-- A shell script that the run does not expect was named by its path, through a link. -/
theorem namesLink_of_unseen (hp : Prepares host r c t p) (hs : ¬ maySeeShell p.filter c.path = true)
    (hm : cand ∈ p.candidates) (hx : cand.extension = "sh") :
    p.tree.isDirectory host.cwd c.path = false ∧ p.candidates = [cand] ∧
      (p.tree.WellFormed → p.tree.get? host.cwd = some .directory →
        p.tree.NamesLink host.cwd c.path) := by
  rw [maySeeShell_iff, not_or] at hs
  have hscan : scan p.tree host.cwd p.filter (c.recursive || p.config.scan.recursive) c.path =
      .ok p.candidates :=
    hp.scan
  have hd : p.tree.isDirectory host.cwd c.path = false :=
    eq_false_of_ne_true fun hd => hs.1 (hx ▸ extension_mem_of_mem_scan hd hscan hm)
  obtain ⟨l, hl, hg, hcs⟩ := eq_singleton_of_scan hd hscan
  rw [hcs] at hm
  cases List.mem_singleton.mp hm
  refine ⟨hd, hcs, fun hw hcwd => ?_⟩
  rcases FileTree.get?_of_locate hw hcwd hl with hdir | ⟨bytes, mode, hfile⟩
  · exact absurd hdir hg
  · rcases FileTree.extension?_of_locate hw hcwd hl hfile with hlink | he
    · exact hlink
    · have hsh : Path.extension? l.toPath = some "sh" := by
        cases hext : Path.extension? l.toPath with
        | none => simp [Candidate.ofPath, Path.extensionOrEmpty, hext] at hx
        | some extension => simpa [Candidate.ofPath, Path.extensionOrEmpty, hext] using hx
      exact absurd (he.trans hsh) hs.2

/-- A script that is read and not ignored is checked. -/
theorem isChecked_analyze {settings : Settings} {cwd : Location} {text : String}
    (hr : cand.Reads t cwd text)
    (hi : isIgnored text.toList = false) : (analyze settings t cwd cand).IsChecked := by
  rw [analyze_of_checked settings hr hi]
  refine ⟨rfl, fun f hf => ?_⟩
  obtain ⟨check, _, hf⟩ := List.mem_flatMap.mp hf
  rw [Check.check_of_mem_evaluate hf]
  exact (unreadable_ne_name check).symm

/-- Which shell scripts of a run with syntax checks the shell reads. It reads exactly what is handed
to it. All scripts that are read and not ignored are handed to it, and the syntax check is among the
checks, if the types or the text of the path show that there are shell scripts. Otherwise the path
is not the one of a directory, the only candidate is the file that it leads to, through a link in
the place of its last name, and that script escapes: no finding tells of its syntax. Where programs
write nothing, a script is read if it can be read when the run starts. -/
theorem mem_handed_iff (hp : Prepares host r c t p) (he : p.config.syntaxCheck.enabled = true)
    (hn : c.noSyntax = false) (hd : "syntax" ∉ p.config.checks.disabled) :
    let seen := "sh" ∈ p.filter.extensions ∨ Path.extension? c.path = some "sh"
    (p.finalTree host c = match p.shell c with
      | none => p.tree
      | some shell => ((shellEffects host.programs shell (p.handed host c)).run p.tree).2) ∧
    (Check.shellSyntax ∈ (p.config.registered (p.shell c)).checks ↔ seen) ∧
    (∀ cand result, (cand, result) ∈ p.candidates.zip (p.results host c) → cand.extension = "sh" →
      (result.IsChecked → (cand.path ∈ p.handed host c ↔ seen)) ∧
      (¬ seen → p.tree.isDirectory host.cwd c.path = false ∧ p.candidates = [cand] ∧
        (∀ f ∈ result.findings, f.check ≠ "syntax") ∧
        (p.tree.WellFormed → p.tree.get? host.cwd = some .directory →
          p.tree.NamesLink host.cwd c.path))) ∧
    ∀ cand ∈ p.candidates, cand.extension = "sh" →
      ∀ text, cand.Reads p.tree host.cwd text → isIgnored text.toList = false →
        WriteNothing host.programs ∨ ¬ seen → (cand.path ∈ p.handed host c ↔ seen) := by
  intro seen
  have hshell : (p.shell c).isSome = true ↔ seen :=
    (Prepared.isSome_shell he hn).trans maySeeShell_iff
  have hnone (hs : ¬ seen) : p.shell c = none :=
    Option.not_isSome_iff_eq_none.mp fun hsome => hs (hshell.mp hsome)
  have hescape {path : String} (hs : ¬ seen) : path ∈ p.handed host c ↔ seen := by
    rw [Prepared.handed_of_none (hnone hs)]
    exact iff_of_false List.not_mem_nil hs
  have hchecked {cand : Candidate} {result : FileResult}
      (hm : (cand, result) ∈ p.candidates.zip (p.results host c))
      (hx : cand.extension = "sh") (hr : result.IsChecked) :
        cand.path ∈ p.handed host c ↔ seen := by
    by_cases hs : seen
    · refine iff_of_true ?_ hs
      exact (Prepared.resultAmong_of_mem_zip hm).mem_handedPaths hr hx hd (hshell.mpr hs)
    · exact hescape hs
  refine ⟨p.finalTree_eq host c, ?_, fun cand result hm hx => ⟨hchecked hm hx, fun hs => ?_⟩,
    fun cand hm hx text hr hi hw => ?_⟩
  · rw [Settings.shellSyntax_mem_checks, ← hshell]
    simp [Config.registered, Config.settings, hd]
  · have hunseen : ¬ maySeeShell p.filter c.path = true := fun h => hs (maySeeShell_iff.mp h)
    obtain ⟨hdir, hcs, hlink⟩ := namesLink_of_unseen hp hunseen (List.of_mem_zip hm).1 hx
    have hamong := Prepared.resultAmong_of_mem_zip hm
    rw [hnone hs] at hamong
    exact ⟨hdir, hcs, hamong.check_ne_syntax, hlink⟩
  · rcases hw with hw | hs
    · have hresults : p.results host c =
          p.candidates.map (analyze (p.settings host c) p.tree host.cwd) :=
        congrArg Prod.fst (p.runOn_inspection_of_keeps host c hw)
      have hpair : (cand, analyze (p.settings host c) p.tree host.cwd cand) ∈
          p.candidates.zip (p.results host c) := by
        rw [hresults, ← List.map_prod_left_eq_zip]
        exact List.mem_map_of_mem hm
      exact hchecked hpair hx (isChecked_analyze hr hi)
    · exact hescape hs

end Gate

/-- A run on Python scripts, with the path of a link to a shell script. -/
def linkedCheck : CheckRequest where
  path := "/run"
  types := some ["py"]

/-- What the run has settled. -/
def linkedRun : Prepared where
  config := {}
  filter := ⟨["py"], []⟩
  tree := ⟨[([['a', '.', 's', 'h']], .file .empty 0o755), ([['r', 'u', 'n']], .link "a.sh")]⟩
  candidates := [⟨"/a.sh", "sh"⟩]

theorem fileAt_linkedRun : linkedRun.tree.FileAt [['r', 'u', 'n']] [['a', '.', 's', 'h']] := by
  have hget : linkedRun.tree.get? ([] ++ [['r', 'u', 'n']]) = some (.link "a.sh") := by decide
  refine ⟨by decide, ?_, .empty, 0o755, by decide⟩
  refine (FileTree.follow_last_link (by decide) hget).trans ?_
  change linkedRun.tree.follow 39 [] (Path.splitSlash "a.sh".toList) = _
  cbv

theorem prepares_linkedRun :
    Prepares {} { noConfig := true, command := .check linkedCheck } linkedCheck linkedRun.tree
      linkedRun := by
  refine ⟨rfl, ?_, ?_, ?_, List.cons_ne_nil _ _⟩
  · cbv
  · have hnone : linkedRun.shell linkedCheck = none := by decide
    rw [hnone]
    rfl
  · exact scan_toPath fileAt_linkedRun _ _

theorem reads_linkedRun : (⟨"/a.sh", "sh"⟩ : Candidate).Reads linkedRun.tree [] "" := by
  have hw : linkedRun.tree.WellFormed := by decide
  have hg : linkedRun.tree.get? [['a', '.', 's', 'h']] = some (.file .empty 0o755) := rfl
  exact ⟨.empty, (hw.file_toPath hg (by decide) []).1, by decide⟩

/-- The script escapes, and the path is the one of a link. -/
theorem mem_handed_iff_linkedRun :
    "/a.sh" ∉ linkedRun.handed {} linkedCheck ∧ linkedRun.tree.NamesLink [] "/run" := by
  have hunseen :
      ¬ ("sh" ∈ linkedRun.filter.extensions ∨ Path.extension? linkedCheck.path = some "sh") := by
    decide
  obtain ⟨_, _, hresults, hreads⟩ := mem_handed_iff prepares_linkedRun rfl rfl (by decide)
  have hiff :=
    hreads _ (List.mem_singleton_self _) rfl "" reads_linkedRun (by decide) (.inr hunseen)
  have hrun := linkedRun.runOn_inspection_of_keeps {} linkedCheck writeNothing_noPrograms
  have hzip : (⟨"/a.sh", "sh"⟩,
      analyze (linkedRun.settings {} linkedCheck) linkedRun.tree [] ⟨"/a.sh", "sh"⟩) ∈
      linkedRun.candidates.zip (linkedRun.results {} linkedCheck) := by
    rw [Prepared.results, hrun]
    exact List.mem_singleton_self _
  have hescape := (hresults _ _ hzip rfl).2 hunseen
  exact ⟨fun h => hunseen (hiff.mp h), hescape.2.2.2 (by decide) rfl⟩

/-- A run with syntax checks can leave out a readable script that is not ignored. -/
theorem linkedRun_escapes :
    ¬ ∀ (host : Host) (r : Request) (c : CheckRequest) (t : FileTree) (p : Prepared)
        (cand : Candidate) (text : String),
      r.command = .check c → Prepares host r c t p → p.config.syntaxCheck.enabled = true →
        c.noSyntax = false → "syntax" ∉ p.config.checks.disabled → cand ∈ p.candidates →
        cand.extension = "sh" → cand.Reads p.tree host.cwd text → isIgnored text.toList = false →
        cand.path ∈ p.handed host c := by
  intro h
  have hm := h {} _ linkedCheck linkedRun.tree linkedRun ⟨"/a.sh",
    "sh"⟩ "" rfl prepares_linkedRun rfl rfl
    (by decide) (List.mem_singleton_self _) rfl reads_linkedRun (by decide)
  rw [Prepared.handed_of_none (by decide)] at hm
  cases hm

end ScriptLint
