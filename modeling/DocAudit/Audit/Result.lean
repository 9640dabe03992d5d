import DocAudit.Policy.Resolve

/-!
# Results of a run

The issues of a run and its counts.  `bySeverity` counts the issues; every severity of the scale is
there, also with a count of zero.
-/

namespace DocAudit.Audit

/-- The counts of a run: elements looked at, findings made, and findings not reported. -/
structure Stats where
  elements : Int
  findings : Int
  suppressed : Int
deriving Repr, DecidableEq, Inhabited

/-- The result of a run. -/
structure Result where
  runId : String
  issues : List Issue
  stats : Stats
deriving Repr, DecidableEq, Inhabited

/-- The number of issues of a severity. -/
def countOf (issues : List Issue) (s : Severity) : Nat :=
  (issues.filter fun i => i.severity == s).length

/-- **The number of issues by severity**, those of the scale first. -/
def bySeverity (issues : List Issue) : List (Severity × Nat) :=
  ((Severity.scale ++ issues.map (·.severity)).eraseDups).map fun s => (s, countOf issues s)

/-- Whether an issue of a result reaches a threshold. -/
def Result.fails (r : Result) (threshold : Severity) : Bool := Policy.shouldFail r.issues threshold

/-- The number of issues that reach a threshold. -/
def Result.atLeast (r : Result) (threshold : Severity) : Nat :=
  (r.issues.filter fun i => i.severity.atLeast threshold).length

end DocAudit.Audit
