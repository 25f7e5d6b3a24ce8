import ScriptLint.Check.Basic
import ScriptLint.Proofs.Characters
import ScriptLint.Report.Failure
import ScriptLint.Report.Outcomes

/-!
Colors are decoration. Reports with colors are reports without them, with color sequences put in
between. Main statement: `uncolored_reports`, deleting these sequences gives the plain report, if
nothing that is reported has escape characters of its own.
-/

namespace ScriptLint

/-! ## Color sequences -/

/-- The character that control sequences begin with. -/
def escape : Char := '\x1b'

/-- What follows the color sequence that a text starts with: `[` after the escape character, then
numbers with semicolons between them, then `m`. -/
def afterColors? : List Char → Option (List Char)
  | '\x1b' :: '[' :: s =>
    match s.dropWhile fun c => c.isDigit || c == ';' with
    | 'm' :: rest => some rest
    | _ => none
  | _ => none

theorem length_afterColors? {s rest : List Char} (h : afterColors? s = some rest) :
    rest.length < s.length := by
  unfold afterColors? at h
  split at h
  · next s =>
    have hle := (List.dropWhile_sublist (fun c => c.isDigit || c == ';') (l := s)).length_le
    split at h
    · next rest' hd =>
      cases h
      rw [hd, List.length_cons] at hle
      simp only [List.length_cons]
      omega
    · cases h
  · cases h

/-- The text without its color sequences. -/
def withoutColors (s : List Char) : List Char :=
  match s with
  | [] => []
  | c :: rest =>
    match _h : afterColors? (c :: rest) with
    | some after => withoutColors after
    | none => c :: withoutColors rest
termination_by s.length
decreasing_by
  · exact length_afterColors? _h
  · exact Nat.lt_succ_self _

def uncolored (text : String) : String :=
  String.ofList (withoutColors text.toList)

/-- Only an escape character begins a color sequence. -/
theorem withoutColors_cons {c : Char} (hc : c ≠ escape) (s : List Char) :
    withoutColors (c :: s) = c :: withoutColors s := by
  have hnone : afterColors? (c :: s) = none := by
    unfold afterColors?
    split
    · next he => exact absurd (List.cons.inj he).1 hc
    · rfl
  rw [withoutColors]
  split
  · next h => rw [hnone] at h; cases h
  · rfl

theorem withoutColors_append {s : List Char} (h : escape ∉ s) (rest : List Char) :
    withoutColors (s ++ rest) = s ++ withoutColors rest := by
  induction s with
  | nil => rfl
  | cons c s ih =>
    obtain ⟨hc, hs⟩ := List.ne_and_not_mem_of_not_mem_cons h
    rw [List.cons_append, withoutColors_cons hc.symm, ih hs, List.cons_append]

theorem withoutColors_of_after {s rest : List Char} (h : afterColors? s = some rest) :
    withoutColors s = withoutColors rest := by
  fun_cases withoutColors s with
  | case1 => cases h
  | case2 c s after hafter =>
    rw [hafter] at h
    cases h
    rfl
  | case3 c s hnone =>
    rw [hnone] at h
    cases h

example : uncolored "\x1b[1;31ma\x1b[0m[0m" = "a[0m" := by cbv

theorem Style.after_start (style : Style) (rest : List Char) :
    afterColors? (style.start.toList ++ rest) = some rest := by
  cases style <;> rfl

theorem Style.after_reset (rest : List Char) :
    afterColors? (Style.reset.toList ++ rest) = some rest :=
  rfl

/-! ## Decorated texts -/

-- Color sequences are looked for from left to right, so it is not enough to know what becomes of a
-- text that stands
-- alone: what comes after it must not be taken for a part of its last sequence.
/-- Without its color sequences the colored text is the plain one, whatever comes after it. -/
def Decorates (colored plain : String) : Prop :=
  ∀ rest, withoutColors (colored.toList ++ rest) = plain.toList ++ withoutColors rest

namespace Decorates

variable {colored colored' plain plain' text : String}

theorem uncolored_eq (h : Decorates colored plain) : uncolored colored = plain := by
  have h := h []
  rw [List.append_nil, withoutColors, List.append_nil] at h
  rw [uncolored, h, String.ofList_toList]

theorem append (h : Decorates colored plain) (h' : Decorates colored' plain') :
    Decorates (colored ++ colored') (plain ++ plain') := by
  intro rest
  rw [String.toList_append, List.append_assoc, h, h', String.toList_append, List.append_assoc]

theorem of_lacks (h : Lacks escape text) : Decorates text text :=
  withoutColors_append h

theorem andText (h : Decorates colored plain) (ht : Lacks escape text) :
    Decorates (colored ++ text) (plain ++ text) :=
  h.append (of_lacks ht)

theorem empty : Decorates "" "" :=
  fun _ => rfl

theorem join {α : Type} {f g : α → String} {l : List α} (h : ∀ a ∈ l, Decorates (f a) (g a)) :
    Decorates (String.join (l.map f)) (String.join (l.map g)) := by
  induction l with
  | nil => exact empty
  | cons a l ih =>
    rw [List.map_cons, List.map_cons, String.join_cons, String.join_cons]
    exact (h a List.mem_cons_self).append (ih fun b hb => h b (List.mem_cons_of_mem a hb))

theorem start (style : Style) : Decorates style.start "" := by
  intro rest
  exact withoutColors_of_after (style.after_start rest)

theorem reset : Decorates Style.reset "" := by
  intro rest
  exact withoutColors_of_after (Style.after_reset rest)

theorem starts (styles : List Style) : Decorates (String.join (styles.map Style.start)) "" := by
  induction styles with
  | nil => exact empty
  | cons style styles ih =>
    rw [List.map_cons, String.join_cons]
    exact (start style).append ih

/-- A text in styles is the text between color sequences. -/
theorem paint (styles : List Style) (h : Lacks escape text) :
    Decorates (paint true styles text) (paint false styles text) := by
  have hpainted := ((starts styles).append (of_lacks h)).append reset
  rwa [String.empty_append, String.append_empty] at hpainted

end Decorates

/-! ## Reports -/

/-- The style with or without colors. -/
def ReportStyle.withColors (style : ReportStyle) (colored : Bool) : ReportStyle :=
  { style with colored }

/-- No text of the result has an escape character. -/
structure FileResult.Unescaped (r : FileResult) : Prop where
  path : Lacks escape r.path
  checks : ∀ f ∈ r.findings, Lacks escape f.check
  messages : ∀ f ∈ r.findings, Lacks escape f.message

/-- The reason for which formatting failed, if it did. -/
def Outcome.reason? : Outcome → Option String
  | failed reason => some reason
  | unchanged | formatted | needsFormat => none

/-- The texts that a failure tells about. -/
def Failure.texts : Failure → List String
  | pathNotFound path => [path]
  | noFilesMatched extensions => extensions
  | validatorUnavailable program cause => [program, cause.message]
  | formatterUnavailable program => [program]
  | config problem => [problem]
  | document cause => [cause.message]
  | fileRead path cause => [path, cause.message]
  | invalidPattern cause => [cause.pattern, cause.message]
  | io cause => [cause.message]

namespace Report

variable {style : ReportStyle}

theorem decorates_finding {f : Finding} (hcheck : Lacks escape f.check)
    (hmessage : Lacks escape f.message) :
    Decorates (finding (style.withColors true) f) (finding (style.withColors false) f) := by
  have hmark : Lacks escape (sign f.severity).1 := by
    cases f.severity <;> decide
  have hsign := Decorates.paint [(sign f.severity).2] hmark
  exact Decorates.of_lacks (by decide) |>.append hsign |>.andText (by decide) |>.andText hcheck
    |>.andText (by decide) |>.andText (lacks_location rfl (by decide) (by decide) f.line) |>.andText
      (by decide) |>.andText hmessage
    |>.andText (by decide)

theorem decorates_statusLine {path : String} {label : Label} (hsign : Lacks escape label.sign)
    (hword : Lacks escape label.word) (hpath : Lacks escape path) :
    Decorates (statusLine (style.withColors true) path label)
      (statusLine (style.withColors false) path label) := by
  have hshown := lacks_path (by decide) (by decide) hpath style
  exact Decorates.of_lacks hsign |>.andText (by decide) |>.append (.paint [label.color] hword)
    |>.andText (by decide) |>.andText hshown |>.andText (by decide)

theorem decorates_block {r : FileResult} (h : r.Unescaped) :
    Decorates (block (style.withColors true) r) (block (style.withColors false) r) := by
  have hsign : Lacks escape r.status.label.sign := by
    cases r.status <;> decide
  have hword : Lacks escape r.status.label.word := by
    cases r.status <;> decide
  have hfindings :=
    Decorates.join fun f hf => @decorates_finding style f (h.checks f hf) (h.messages f hf)
  exact (decorates_statusLine hsign hword h.path).append hfindings |>.andText (by decide)

theorem decorates_summaryLine (s : Summary) :
    Decorates (summaryLine (style.withColors true) s) (summaryLine (style.withColors false) s) := by
  have hnumber (n : Nat) : Lacks escape (decimalText n) := lacks_decimalText rfl n
  exact Decorates.of_lacks (by decide) |>.andText (hnumber s.totalFiles) |>.andText (by decide)
    |>.append (.paint [.green] (hnumber s.passedFiles)) |>.andText (by decide)
    |>.append (.paint [.red] (hnumber s.failedFiles)) |>.andText (by decide)
    |>.append (.paint [.yellow] (hnumber s.totalWarnings)) |>.andText (by decide)

theorem decorates_text {results : List FileResult} (h : ∀ r ∈ results, r.Unescaped) (s : Summary) :
    Decorates (text (style.withColors true) results s)
      (text (style.withColors false) results s) := by
  have hshown : ∀ r ∈ shown style.verbose results, r.Unescaped := by
    intro r hr
    obtain ⟨_, _, hr⟩ := List.mem_flatMap.mp hr
    exact h r (List.mem_filter.mp hr).1
  exact (Decorates.join fun r hr => decorates_block (hshown r hr)).append (decorates_summaryLine s)

theorem decorates_outcome {path : String} {o : Outcome} (hpath : Lacks escape path)
    (hreason : ∀ reason, o.reason? = some reason → Lacks escape reason) :
    Decorates (outcome (style.withColors true) path o)
      (outcome (style.withColors false) path o) := by
  have hline : Decorates (statusLine (style.withColors true) path o.label)
      (statusLine (style.withColors false) path o.label) := by
    refine decorates_statusLine ?_ ?_ hpath
    · fun_cases Outcome.label o <;> decide
    · fun_cases Outcome.label o <;> decide
  cases o with
  | unchanged =>
    unfold outcome ReportStyle.withColors
    simp only
    split
    · exact .empty
    · exact hline
  | formatted => exact hline
  | needsFormat => exact hline
  | failed reason =>
    exact hline.andText (by decide) |>.andText (hreason reason rfl) |>.andText (by decide)

theorem decorates_outcomeSummary (checkOnly : Bool) (os : List Outcome) :
    Decorates (outcomeSummary (style.withColors true) checkOnly os)
      (outcomeSummary (style.withColors false) checkOnly os) := by
  have hnumber (n : Nat) : Lacks escape (decimalText n) := lacks_decimalText rfl n
  have hchanged : Lacks escape
      (if checkOnly then decimalText (os.countP (· == .needsFormat)) ++ " need formatting"
      else decimalText (os.countP (· == .formatted)) ++ " formatted") := by
    split
    · exact .append (hnumber _) (by decide)
    · exact .append (hnumber _) (by decide)
  exact Decorates.of_lacks (by decide) |>.andText (hnumber _) |>.andText (by decide) |>.andText
    (hnumber _)
    |>.andText (by decide) |>.andText hchanged |>.andText (by decide)
    |>.append (.paint [.red] (hnumber _)) |>.andText (by decide)

theorem decorates_outcomes {os : List (String × Outcome)} (hpath : ∀ o ∈ os, Lacks escape o.1)
    (hreason : ∀ o ∈ os, ∀ reason, o.2.reason? = some reason → Lacks escape reason)
    (checkOnly : Bool) :
    Decorates (outcomes (style.withColors true) checkOnly os)
      (outcomes (style.withColors false) checkOnly os) :=
  (Decorates.join fun o ho => decorates_outcome (hpath o ho) (hreason o ho)).append
    (decorates_outcomeSummary checkOnly _)

theorem decorates_detailLine {detail : Option String}
    (h : ∀ text, detail = some text → Lacks escape text) :
    Decorates (detailLine true detail) (detailLine false detail) := by
  cases detail with
  | none => exact .empty
  | some text =>
    have htext : Lacks escape ("× " ++ text) := .append (by decide) (h text rfl)
    exact Decorates.of_lacks (by decide) |>.append (.paint [.dim] htext) |>.andText (by decide)

theorem decorates_hintLine {hint : Option String}
    (h : ∀ text, hint = some text → Lacks escape text) :
    Decorates (hintLine true hint) (hintLine false hint) := by
  cases hint with
  | none => exact .empty
  | some text =>
    exact Decorates.of_lacks (by decide) |>.append (.paint [.cyan] (by decide)) |>.andText
      (by decide)
      |>.andText (h text rfl) |>.andText (by decide)

theorem decorates_problem {title message : String} {detail hint : Option String}
    (htitle : Lacks escape title)
    (hmessage : Lacks escape message) (hdetail : ∀ text, detail = some text → Lacks escape text)
    (hhint : ∀ text, hint = some text → Lacks escape text) :
    Decorates (problem true title message detail hint)
      (problem false title message detail hint) := by
  have hheadline : Lacks escape ("✖ " ++ title ++ ":") :=
    .append (.append (by decide) htitle) (by decide)
  exact Decorates.paint [.bold,
    .red] hheadline |>.andText (by decide) |>.andText hmessage |>.andText (by decide)
    |>.append (decorates_detailLine hdetail) |>.append (decorates_hintLine hhint)

end Report

namespace Failure

variable {f : Failure}

theorem lacks_title (f : Failure) : Lacks escape f.title := by
  fun_cases title f <;> decide

theorem lacks_message (h : ∀ text ∈ f.texts, Lacks escape text) : Lacks escape f.message := by
  cases f with
  | pathNotFound path => exact .append (by decide) (h path List.mem_cons_self)
  | noFilesMatched extensions => exact .append (by decide) (lacks_intercalate (by decide) h)
  | validatorUnavailable program cause =>
    exact .append (.append (by decide) (h program List.mem_cons_self)) (by decide)
  | formatterUnavailable program =>
    exact .append (.append (by decide) (h program List.mem_cons_self)) (by decide)
  | config problem => exact .append (by decide) (h problem List.mem_cons_self)
  | document cause => exact .append (by decide) (h cause.message List.mem_cons_self)
  | fileRead path cause => exact .append (by decide) (h path List.mem_cons_self)
  | invalidPattern cause => exact .append (by decide) (h cause.pattern List.mem_cons_self)
  | io cause => exact .append (by decide) (h cause.message List.mem_cons_self)

/-- A detail is one of the texts. -/
theorem mem_texts_of_detail {text : String} (h : f.detail = some text) : text ∈ f.texts := by
  cases f <;> simp_all [detail, texts]

theorem lacks_suggestion (h : ∀ text ∈ f.texts, Lacks escape text) {text : String}
    (htext : f.suggestion = some text) : Lacks escape text := by
  cases f with
  | validatorUnavailable program cause =>
    cases htext
    exact .append (.append (by decide) (h program List.mem_cons_self)) (by decide)
  | formatterUnavailable program =>
    cases htext
    have hprogram : Lacks escape ("Install " ++ program) :=
      .append (by decide) (h program List.mem_cons_self)
    exact .append (.append hprogram (by decide)) (by decide)
  | fileRead path cause =>
    unfold suggestion at htext
    simp only at htext
    split at htext
    · cases htext
      decide
    · cases htext
      decide
    · cases htext
    · cases htext
  | io cause => cases htext
  | pathNotFound | noFilesMatched | config | document | invalidPattern =>
    cases htext
    decide

end Failure

/-- Deleting the color sequences from a report with colors gives the same report without colors, as
long as no text in it has an escape character. This holds of the report on checks, for any results
with any summary, of the report on formatting, of the report on a failure, and of reports on other
problems. -/
theorem uncolored_reports {results : List FileResult} {os : List (String × Outcome)} {f : Failure}
    (style : ReportStyle) (summary : Summary) (checkOnly : Bool)
    (hresults : ∀ r ∈ results, r.Unescaped) (hpaths : ∀ o ∈ os, Lacks escape o.1)
    (hreasons : ∀ o ∈ os, ∀ reason, o.2.reason? = some reason → Lacks escape reason)
    (htexts : ∀ text ∈ f.texts, Lacks escape text) :
    uncolored (Report.text (style.withColors true) results summary) =
      Report.text (style.withColors false) results summary ∧
    uncolored (Report.outcomes (style.withColors true) checkOnly os) =
      Report.outcomes (style.withColors false) checkOnly os ∧
    uncolored (Report.failure true f) = Report.failure false f ∧
    ∀ (title message : String) (detail hint : Option String), Lacks escape title →
      Lacks escape message →
      (∀ text, detail = some text → Lacks escape text) →
        (∀ text, hint = some text → Lacks escape text) →
      uncolored (Report.problem true title message detail hint) =
        Report.problem false title message detail hint := by
  refine ⟨?_, ?_, ?_, ?_⟩
  · exact (Report.decorates_text hresults summary).uncolored_eq
  · exact (Report.decorates_outcomes hpaths hreasons checkOnly).uncolored_eq
  · have hdetail (text : String) (h : f.detail = some text) :=
      htexts text (Failure.mem_texts_of_detail h)
    exact (Report.decorates_problem f.lacks_title (Failure.lacks_message htexts) hdetail
      fun _ => Failure.lacks_suggestion htexts).uncolored_eq
  · intro title message detail hint htitle hmessage hdetail hhint
    exact (Report.decorates_problem htitle hmessage hdetail hhint).uncolored_eq

/-- The result for a script without an interpreter line. -/
def bareResult : FileResult where
  path := "/p/a.sh"
  findings := [Check.shebang.fail "missing shebang" (some 1)]

theorem uncolored_reports_bareResult :
    let style : ReportStyle := { root := some "/p" }
    let summary := Summary.ofResults [bareResult]
    bareResult.Unescaped ∧
    Report.text (style.withColors true) [bareResult] summary =
      "✗ \x1b[31mFAILED\x1b[0m: a.sh\n   \x1b[31m✗\x1b[0m [shebang] line 1: missing shebang\n\n" ++
      "Summary: 1 files checked, \x1b[32m0\x1b[0m passed, \x1b[31m1\x1b[0m failed, " ++
        "\x1b[33m0\x1b[0m warnings\n" ∧
    uncolored (Report.text (style.withColors true) [bareResult] summary) =
      Report.text (style.withColors false) [bareResult] summary ∧
    uncolored (Report.outcomes (style.withColors true) true
      [("/p/a.sh", .failed "exit status: 1")]) =
      Report.outcomes (style.withColors false) true [("/p/a.sh", .failed "exit status: 1")] ∧
    uncolored (Report.failure true (.formatterUnavailable "shfmt")) =
      Report.failure false (.formatterUnavailable "shfmt") := by
  have hresult : bareResult.Unescaped := ⟨by decide, by decide, by decide⟩
  have hreasons : ∀ o ∈ [("/p/a.sh", Outcome.failed "exit status: 1")], ∀ reason,
      o.2.reason? = some reason → Lacks escape reason := by
    rintro o ho reason hreason
    rw [List.mem_singleton.mp ho] at hreason
    cases hreason
    decide
  obtain ⟨htext, houtcomes, hfailure, _⟩ :=
    @uncolored_reports [bareResult] [("/p/a.sh", .failed "exit status: 1")]
    (.formatterUnavailable "shfmt") { root := some "/p" } (Summary.ofResults [bareResult]) true
    (List.forall_mem_singleton.mpr hresult) (by decide) hreasons (by decide)
  exact ⟨hresult, by decide +kernel, htext, houtcomes, hfailure⟩

end ScriptLint
