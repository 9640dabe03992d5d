import DocAudit.Audit.Result
import DocAudit.Data.Json
import DocAudit.Text.Case
import DocAudit.Text.Quoted

/-!
# Reports

A result is reported for people, one line an issue and then their number, or for machines, as one
JSON document.  Colours mark the severity and dim the place.
-/

namespace DocAudit.Audit

open DocAudit.Text

/-! ## 1. For people -/

/-- Where an element is: its file, and its line if that is known. -/
def location (e : Element) : String :=
  if e.line > 0 then e.sourceFile ++ ":" ++ toString e.line else e.sourceFile

/-- A text as a terminal shows it after switching attributes on, and off again. -/
def styled (color : Bool) (on off : String) (s : String) : String :=
  if color then "\x1b[" ++ on ++ "m" ++ s ++ "\x1b[" ++ off ++ "m" else s

/-- How a severity looks; a severity off the scale looks like plain text. -/
def severityTag (color : Bool) (s : Severity) : String :=
  let tag := "[" ++ s.text ++ "]"
  if s == .error then styled color "31;1" "0;22" tag
  else if s == .warn then styled color "33" "0" tag
  else if s == .info then styled color "36" "0" tag
  else tag

/-- The line about an issue. -/
def issueLine (color : Bool) (i : Issue) : String :=
  severityTag color i.severity ++ " " ++ i.message ++ " (" ++ i.ruleId ++ ") - " ++
    styled color "2" "22" (location i.element) ++ "\n"

/-- **The report for people.** -/
def Result.text (color : Bool) (r : Result) : String :=
  join "" (r.issues.map (issueLine color)) ++ "Issues: " ++ toString r.issues.length ++ "\n"

/-! ## 2. For machines -/

/-- An issue as data. -/
def issueData (i : Issue) : Data :=
  .record ([("severity", .text i.severity.text), ("rule_id", .text i.ruleId),
    ("message", .text i.message), ("kind", .text i.element.kind.text),
    ("qualified_name", .text i.element.qualifiedName),
    ("display_name", .text i.element.displayName), ("file", .text i.element.sourceFile)] ++
    if i.element.line == 0 then [] else [("line", .int i.element.line)])

/-- The counts of a result as data. -/
def summaryData (r : Result) : Data :=
  .record [("total", .int r.issues.length),
    ("by_severity", .dict ((bySeverity r.issues).map fun (s, n) => (s.text, .int n))),
    ("elements", .int r.stats.elements), ("suppressed", .int r.stats.suppressed)]

/-- A result as data, with the threshold and whether the run failed. -/
def Result.data (r : Result) (threshold : Severity) : Data :=
  .record [("run_id", .text r.runId), ("issues", .list (r.issues.map issueData)),
    ("summary", summaryData r), ("fail_on", .text threshold.text),
    ("failed", .bool (r.fails threshold))]

/-- **The report for machines.** -/
def Result.json (r : Result) (threshold : Severity) : String :=
  (r.data threshold).jsonIndented ++ "\n"

/-! ## 3. Formats -/

/-- How a result is reported. -/
inductive ReportFormat where
  | text
  | json
deriving Repr, DecidableEq, Inhabited

/-- The format that a word names, whatever its case; the empty word is the report for people. -/
def ReportFormat.parse (s : String) : Except Error ReportFormat :=
  let l := lowerText s
  if l == "text" || l == "" then .ok .text
  else if l == "json" then .ok .json
  else .error (.plain ("unsupported report format " ++ quoted s))

/-- A result in a format. -/
def Result.report (r : Result) (f : ReportFormat) (color : Bool) (threshold : Severity) : String :=
  match f with
  | .text => r.text color
  | .json => r.json threshold

end DocAudit.Audit
