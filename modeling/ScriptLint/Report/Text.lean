import ScriptLint.Decimal.Natural
import ScriptLint.Path
import ScriptLint.Report.Style
import ScriptLint.Summary

/-!
The report for readers: a block for each file, grouped by status with the failed files first, and a
summary line.
-/

namespace ScriptLint

structure ReportStyle where
  colored : Bool := false
  verbose : Nat := 0
  /-- Paths below this directory are shown relative to it. -/
  root : Option String := none
  deriving DecidableEq, Repr

namespace ReportStyle

def paint (style : ReportStyle) (color : Style) (text : String) : String :=
  ScriptLint.paint style.colored [color] text

def path (style : ReportStyle) (path : String) : String :=
  Path.display path style.root

end ReportStyle

inductive FileStatus where
  | failed
  | warning
  | passed
  | ignored
  deriving DecidableEq, Repr

namespace FileStatus

/-- The statuses in the order of the report. -/
def all : List FileStatus :=
  [failed, warning, passed, ignored]

def label : FileStatus → Label
  | failed => ⟨"✗", "FAILED", .red⟩
  | warning => ⟨"⚠", "WARNING", .yellow⟩
  | passed => ⟨"✓", "PASSED", .green⟩
  | ignored => ⟨"○", "IGNORED", .cyan⟩

/-- Files with nothing to report show only in verbose reports. -/
def isShown (verbose : Nat) : FileStatus → Bool
  | failed | warning => true
  | passed | ignored => verbose != 0

end FileStatus

def FileResult.status (r : FileResult) : FileStatus :=
  if r.ignored then .ignored
  else if !r.passed then .failed
  else if 0 < r.warningCount then .warning
  else .passed

namespace Report

def sign : Severity → String × Style
  | .critical => ("✗", .red)
  | .warning => ("⚠", .yellow)

def location : Option Nat → String
  | some line => " line " ++ decimalText line ++ ":"
  | none => ""

def finding (style : ReportStyle) (f : Finding) : String :=
  let (mark, color) := sign f.severity
  "   " ++ style.paint color mark ++ " [" ++ f.check ++ "]" ++ location f.line ++ " " ++
    f.message ++ "\n"

/-- The line that gives the status of a file. -/
def statusLine (style : ReportStyle) (path : String) (label : Label) : String :=
  label.sign ++ " " ++ style.paint label.color label.word ++ ": " ++ style.path path ++ "\n"

/-- The block for a file: its status, its findings, and a blank line. -/
def block (style : ReportStyle) (r : FileResult) : String :=
  statusLine style r.path r.status.label ++ String.join (r.findings.map (finding style)) ++ "\n"

def summaryLine (style : ReportStyle) (s : Summary) : String :=
  "Summary: " ++ decimalText s.totalFiles ++ " files checked, " ++
    style.paint .green (decimalText s.passedFiles) ++ " passed, " ++
    style.paint .red (decimalText s.failedFiles) ++ " failed, " ++
    style.paint .yellow (decimalText s.totalWarnings) ++ " warnings\n"

/-- The results in the order of the report, without those that it does not show. -/
def shown (verbose : Nat) (results : List FileResult) : List FileResult :=
  (FileStatus.all.filter (·.isShown verbose)).flatMap fun status =>
    results.filter (·.status == status)

def text (style : ReportStyle) (results : List FileResult) (summary : Summary) : String :=
  String.join ((shown style.verbose results).map (block style)) ++ summaryLine style summary

end Report

end ScriptLint
