import ScriptLint.Proofs.LineEnds
import ScriptLint.Proofs.SingleLines

/-!
The lines of a report for readers. Main statement: `lines_block_analyze`, the block for a file has
its status line, one line for each finding, and a blank line.
-/

namespace ScriptLint

/-- The text is one line with the line feed that ends it. -/
def IsLine (text : String) : Prop :=
  ∃ front, '\n' ∉ front ∧ text.toList = front ++ ['\n']

namespace IsLine

variable {text : String} {texts : List String}

theorem of_lacks (h : Lacks '\n' text) : IsLine (text ++ "\n") :=
  ⟨text.toList, h, String.toList_append⟩

theorem length_lines (h : IsLine text) : (lines text.toList).length = 1 := by
  obtain ⟨front, hfront, he⟩ := h
  rw [he, length_lines_append_lf hfront]

theorem lines_append (h : IsLine text) (rest : List Char) :
    lines (text.toList ++ rest) = lines text.toList ++ lines rest := by
  obtain ⟨front, _, he⟩ := h
  rw [he, List.append_assoc, List.singleton_append, lines_append_cons_lf]

theorem lines_join (h : ∀ text ∈ texts, IsLine text) (rest : List Char) :
    lines ((String.join texts).toList ++ rest) = texts.flatMap (fun text => lines text.toList) ++
      lines rest := by
  induction texts with
  | nil => rfl
  | cons text texts ih =>
    have ih := ih fun text' ht => h text' (List.mem_cons_of_mem text ht)
    rw [String.join_cons, String.toList_append, List.append_assoc,
      (h text List.mem_cons_self).lines_append, ih, List.flatMap_cons, List.append_assoc]

end IsLine

theorem lacks_paint {text : String} (colored : Bool) (styles : List Style) (h : Lacks '\n' text) :
    Lacks '\n' (paint colored styles text) := by
  have hstart : Lacks '\n' (String.join (styles.map Style.start)) := by
    refine lacks_join fun start hstart => ?_
    obtain ⟨style, _, rfl⟩ := List.mem_map.mp hstart
    cases style <;> decide
  unfold paint
  split
  · exact .append (.append hstart h) (by decide)
  · exact h

namespace Report

variable {style : ReportStyle}

theorem isLine_finding {f : Finding} (hcheck : Lacks '\n' f.check)
    (hmessage : Lacks '\n' f.message) :
    IsLine (finding style f) := by
  have hmark : Lacks '\n' (sign f.severity).1 := by
    cases f.severity <;> decide
  have hpainted := lacks_paint style.colored [(sign f.severity).2] hmark
  have hlocation : Lacks '\n' (location f.line) := lacks_location rfl (by decide) (by decide) f.line
  have hfirst : Lacks '\n' "   " := by decide
  exact .of_lacks
    (hfirst.append hpainted |>.append (by decide) |>.append hcheck |>.append (by decide)
    |>.append hlocation |>.append (by decide) |>.append hmessage)

theorem isLine_statusLine {path : String} (hpath : Lacks '\n' path) (status : FileStatus) :
    IsLine (statusLine style path status.label) := by
  have hsign : Lacks '\n' status.label.sign := by
    cases status <;> decide
  have hword : Lacks '\n' status.label.word := by
    cases status <;> decide
  have hpainted := lacks_paint style.colored [status.label.color] hword
  have hshown := lacks_path (by decide) (by decide) hpath style
  exact .of_lacks
    (hsign.append (by decide) |>.append hpainted |>.append (by decide) |>.append hshown)

/-- The block for a file, line by line. -/
theorem lines_block {r : FileResult} (hstatus : IsLine (statusLine style r.path r.status.label))
    (hfindings : ∀ f ∈ r.findings, IsLine (finding style f)) :
    lines (block style r).toList =
      lines (statusLine style r.path r.status.label).toList ++
        r.findings.flatMap (fun f => lines (finding style f).toList) ++ [[]] := by
  have hlines : ∀ text ∈ r.findings.map (finding style), IsLine text := by
    intro text ht
    obtain ⟨f, hf, rfl⟩ := List.mem_map.mp ht
    exact hfindings f hf
  rw [block, String.toList_append, String.toList_append, List.append_assoc, hstatus.lines_append,
    IsLine.lines_join hlines, List.flatMap_map, List.append_assoc]
  rfl

end Report

variable {settings : Settings} {t : FileTree} {cwd : Location} {c : Candidate}

theorem path_analyze (settings : Settings) (t : FileTree) (cwd : Location) (c : Candidate) :
    (analyze settings t cwd c).path = c.path := by
  unfold analyze
  split
  · rfl
  · split <;> rfl

theorem lacks_check_of_mem_analyze {f : Finding} (hf : f ∈ (analyze settings t cwd c).findings) :
    Lacks '\n' f.check := by
  unfold analyze at hf
  split at hf
  · rw [List.mem_singleton.mp hf]
    exact (by decide : Lacks '\n' unreadable)
  · split at hf
    · cases hf
    · obtain ⟨check, _, hf⟩ := List.mem_flatMap.mp hf
      rw [Check.check_of_mem_evaluate hf]
      cases check <;> decide

/-- Whatever a file holds, and however much a shell complains about it, no finding on the file has a
message with a line feed. So in reports for readers, in any style, the block for the file has one
line that gives the status, one line for each finding, and a blank line. -/
theorem lines_block_analyze (h : settings.SingleLine) (hpath : Lacks '\n' c.path) (t : FileTree)
    (cwd : Location) (style : ReportStyle) :
    let r := analyze settings t cwd c
    let status := Report.statusLine style r.path r.status.label
    (∀ f ∈ r.findings, Lacks '\n' f.message) ∧
    (lines status.toList).length = 1 ∧
    (∀ f ∈ r.findings, (lines (Report.finding style f).toList).length = 1) ∧
    lines (Report.block style r).toList =
      lines status.toList ++ r.findings.flatMap (fun f => lines (Report.finding style f).toList) ++
        [[]] ∧
    (lines (Report.block style r).toList).length = r.findings.length + 2 := by
  intro r status
  have hmessages : SingleLines r.findings := singleLines_analyze h t cwd hpath
  have hstatus : IsLine status := by
    refine Report.isLine_statusLine ?_ r.status
    rw [path_analyze]
    exact hpath
  have hfindings (f : Finding) (hf : f ∈ r.findings) : IsLine (Report.finding style f) :=
    Report.isLine_finding (lacks_check_of_mem_analyze hf) (hmessages f hf)
  have hblock := Report.lines_block hstatus hfindings
  have hshown : (r.findings.flatMap fun f => lines (Report.finding style f).toList).length =
      r.findings.length := by
    rw [List.length_flatMap, List.map_congr_left fun f hf => (hfindings f hf).length_lines,
      List.map_const', List.sum_replicate_nat, Nat.mul_one]
  refine ⟨hmessages, hstatus.length_lines, fun f hf => (hfindings f hf).length_lines, hblock, ?_⟩
  rw [hblock, List.length_append, List.length_append, hshown, hstatus.length_lines,
    List.length_singleton]
  omega

/-- A script that no shell can read to its end. -/
def brokenScript : String :=
  "#!/bin/zsh \nRED=1\nif true\n"

/-- A shell that complains in four lines. -/
def complainingShell : Programs := fun _ _ =>
  pure (.ok { status := .code 2, stderr :=
    "/a.sh: line 4: syntax error\n\n  near end of file\r\n \n".toUTF8 })

/-- What there is to say about the script and about what the shell makes of it. -/
def brokenMessages : List String := [
  "syntax error: /a.sh: line 4: syntax error; near end of file",
  "shebang might not be bash: #!/bin/zsh",
  "missing 'set -e' or 'set -o errexit'",
  "missing 'set -o pipefail'",
  "incorrect color code for RED (expected: 243;139;168)",
  "uppercase variable 'RED' assigned without 'readonly'",
  "missing description comment on line 2",
  "missing .env integration (.sys/env/.env)"]

theorem lines_block_analyze_brokenScript :
    let settings := checkSettings {} complainingShell (some "bash") (scriptOf brokenScript)
    let r := analyze settings (scriptOf brokenScript) [] ⟨"/a.sh", "sh"⟩
    settings.SingleLine ∧ r.findings.map (·.message) = brokenMessages ∧
      (lines (Report.block {} r).toList).length = 10 := by
  intro settings r
  have hanswers : ∀ program args e,
      ((complainingShell program args).run (scriptOf brokenScript)).1 = .error e →
        Lacks '\n' e.message := by
    intro program args e h
    cases h
  have hsettings : settings.SingleLine :=
    ⟨by decide, by decide, by decide, fun _ hv =>
      isShell_checkSettings hanswers {} (some "bash") hv⟩
  obtain ⟨hr, hmode⟩ := reads_scriptOf brokenScript
  have hmessages : r.findings.map (·.message) = brokenMessages := by
    simp only [r, analyze_of_checked settings hr (by decide +kernel), Candidate.script, hmode]
    decide +kernel
  have hlength : r.findings.length = 8 := by
    rw [← List.length_map (·.message), hmessages]
    rfl
  have hlines := @lines_block_analyze settings ⟨"/a.sh",
    "sh"⟩ hsettings (by decide) (scriptOf brokenScript) [] {}
  refine ⟨hsettings, hmessages, ?_⟩
  rw [hlines.2.2.2.2, hlength]

end ScriptLint
