import DocAudit.Audit.Result
import DocAudit.Metrics
import DocAudit.Policy.Resolve
import DocAudit.Rule.Registry
import DocAudit.Trace

/-!
# Runs

A run evaluates the enabled rule entries in their order, grades the findings, and sorts the issues
by file and name.

* `stepsOf` lists what became of the entries, up to the first that failed; everything else about a
  run is read off this list.
* A run gives all of its issues or none: after a failed entry there is no result.
* `record` is what a run tells about itself: log entries, events for the metrics, and spans.
* `runUntil` is a run that may be called off on its way; `run` is called off at its start or not at
  all; `runOn` is a run that may lack its inventory.
-/

namespace DocAudit.Audit

open DocAudit.Policy DocAudit.Trace

/-! ## 1. Steps -/

/-- What became of a rule entry. -/
inductive Outcome where
  /-- The run was called off before it. -/
  | cancelled
  /-- No rule has its id. -/
  | unknown
  /-- Its rule failed, and handed back findings besides. -/
  | failed (cause : Error) (findings : List Finding)
  | found (findings : List Finding)

/-- What became of an entry, by what its rule handed back. -/
def Outcome.ofEvaluation (e : Evaluation) : Outcome :=
  match e.error? with
  | some x => .failed x e.findings
  | none => .found e.findings

/-- A rule entry and what became of it. -/
structure Step where
  entry : RuleEntry
  outcome : Outcome

/-- What becomes of an entry. -/
def outcomeOf (g : Rule.Registry) (v : Inventory) (cancelled : Bool) (r : RuleEntry) : Outcome :=
  if cancelled then .cancelled
  else
    match g.lookup r.id with
    | none => .unknown
    | some rule => .ofEvaluation (rule.evaluation v r.options false)

/-- The steps through some entries, up to the first that does not end with findings. -/
def stepsOf (outcome : RuleEntry → Outcome) : List RuleEntry → List Step
  | [] => []
  | r :: rs =>
    match outcome r with
    | .found fs => ⟨r, .found fs⟩ :: stepsOf outcome rs
    | o => [⟨r, o⟩]

/-- Whether an error is about the options of a rule. -/
def rejectsOptions (e : Error) : Bool := e.has fun
  | .uncompiled _ => true
  | _ => false

/-- The error that ends a run at a step, if one does: faulty options are reported as they are,
other failures with the id of the rule. -/
def Step.error? (registered : List String) (s : Step) : Option Error :=
  match s.outcome with
  | .cancelled => some .cancelled
  | .unknown => some (.unknownRule s.entry.id registered)
  | .failed e _ => some (if rejectsOptions e then e else .rule s.entry.id e)
  | .found _ => none

/-- The findings of a step that did not fail. -/
def Step.findings (s : Step) : List Finding :=
  match s.outcome with
  | .found fs => fs
  | _ => []

/-- A finding as an issue, if it is reported. -/
def issue? (c : Compiled) (r : RuleEntry) (f : Finding) : Option Issue :=
  (c.resolve r f.element).severity?.map fun s => ⟨s, r.id, f.message, f.element⟩

/-- The issues of a step. -/
def Step.issues (c : Compiled) (s : Step) : List Issue := s.findings.filterMap (issue? c s.entry)

/-- The number of findings of a step that are not reported. -/
def Step.suppressed (c : Compiled) (s : Step) : Nat := s.findings.length - (s.issues c).length

/-! ## 2. The result -/

/-- The order of issues: by file, then by name. -/
def issueBefore (a b : Issue) : Bool :=
  if a.element.sourceFile == b.element.sourceFile then
    decide (a.element.displayName ≤ b.element.displayName)
  else decide (a.element.sourceFile ≤ b.element.sourceFile)

/-- The issues in their order; those of one element stay in the order of the rules. -/
def sortIssues (is : List Issue) : List Issue := is.mergeSort issueBefore

/-- The result of steps that all ended with findings. -/
def resultOf (c : Compiled) (v : Inventory) (runId : String) (steps : List Step) : Result where
  runId := runId
  issues := sortIssues (steps.flatMap (·.issues c))
  stats := ⟨v.size, steps.foldr (fun s n => s.findings.length + n) 0,
    steps.foldr (fun s n => s.suppressed c + n) 0⟩

/-- The result of steps, or the error that the last of them ended with. -/
def conclude (c : Compiled) (registered : List String) (v : Inventory) (runId : String)
    (steps : List Step) : Except Error Result :=
  match steps.findSome? (·.error? registered) with
  | some e => .error e
  | none => .ok (resultOf c v runId steps)

/-! ## 3. What a run tells about itself -/

/-- How long a run and its rules took. -/
structure Timing where
  run : Metrics.Nanoseconds
  rule : RuleEntry → Metrics.Nanoseconds

/-- A run that took no time. -/
def Timing.none : Timing := ⟨0, fun _ => 0⟩

/-- What a run tells about itself. -/
structure Record where
  log : List Log.Entry
  events : List Metrics.Event
  trace : Recording
deriving Repr, DecidableEq, Inhabited

/-- The log of a step. -/
def Step.log (c : Compiled) (runId : String) (s : Step) : List Log.Entry :=
  match s.outcome with
  | .found fs =>
    (fs.filterMap fun f => (c.resolve s.entry f.element).remark? s.entry f.element) ++
      [Log.Entry.within ⟨runId, s.entry.id⟩ ⟨.debug, "rule evaluated",
        [.ofInt "findings" fs.length, .ofInt "issues" (s.issues c).length,
          .ofInt "suppressed" (s.suppressed c)]⟩]
  | _ => []

/-- The events of a step. -/
def Step.events (c : Compiled) (t : Timing) (s : Step) : List Metrics.Event :=
  match s.outcome with
  | .found fs =>
    .evaluation s.entry.id false (t.rule s.entry) fs.length ::
      (if s.suppressed c == 0 then [] else [.suppressed s.entry.id (s.suppressed c)])
  | .failed _ fs => [.evaluation s.entry.id true (t.rule s.entry) fs.length]
  | _ => []

/-- The span of a step, inside the first span of a trace; a step that did not get to its rule has
none. -/
def Step.span? (c : Compiled) (s : Step) : Option Span :=
  let span := Span.started "docguard.rule.evaluate" (some 0)
  match s.outcome with
  | .found fs =>
    some ((span.setAll (ruleAttrs s.entry.id fs.length (s.suppressed c))).conclude none)
  | .failed e _ => some (span.conclude (some e))
  | _ => none

/-- How a run ended. -/
def statusOf (c : Compiled) : Except Error Result → Metrics.RunStatus
  | .error _ => .error
  | .ok r => if r.fails c.failOn then .failed else .success

/-- The log entry at the start of a run. -/
def startLog (c : Compiled) (elements : Int) (runId : String) : Log.Entry :=
  Log.Entry.within ⟨runId, ""⟩ ⟨.debug, "audit run started",
    [.ofInt "elements" elements, .ofInt "rules" c.enabledRules.length]⟩

/-- The log entry at the end of a run with a result. -/
def endLog (r : Result) (t : Timing) (runId : String) : Log.Entry :=
  Log.Entry.within ⟨runId, ""⟩ ⟨.debug, "audit run finished",
    [.ofInt "issues" r.issues.length, .ofInt "findings" r.stats.findings,
      .ofInt "suppressed" r.stats.suppressed, .ofInt "duration_ms" (t.run.toInt.tdiv 1000000)]⟩

/-- The log of a run. -/
def logOf (c : Compiled) (v : Inventory) (t : Timing) (runId : String) (steps : List Step)
    (out : Except Error Result) : List Log.Entry :=
  [startLog c v.size runId] ++ steps.flatMap (·.log c runId) ++
    match out with
    | .error _ => []
    | .ok r => [endLog r t runId]

/-- The events of a run. -/
def eventsOf (c : Compiled) (v : Inventory) (t : Timing) (steps : List Step)
    (out : Except Error Result) : List Metrics.Event :=
  steps.flatMap (·.events c t) ++
    (match out with
      | .error _ => []
      | .ok r => r.issues.map fun i => .issue i.ruleId i.severity.text) ++
    [.run (statusOf c out).word t.run v.size]

/-- The trace of a run: the span of the run, and inside it those of the rules and of the sorting,
which end before it. -/
def traceOf (c : Compiled) (v : Inventory) (runId : String) (steps : List Step)
    (out : Except Error Result) : Recording :=
  let run := Span.started "docguard.audit.run" none
  let inner := steps.filterMap (·.span? c)
  match out with
  | .error e => ⟨run.conclude (some e) :: inner, List.range' 1 inner.length ++ [0]⟩
  | .ok r =>
    let inner := inner ++ [Span.started "docguard.audit.sort" (some 0)]
    ⟨(run.setAll (runAttrs runId v.size r.issues.length)).conclude none :: inner,
      List.range' 1 inner.length ++ [0]⟩

/-! ## 4. The run -/

/-- **Runs the enabled rules on an inventory**: the result or the error, and what the run tells
about itself. -/
def run (c : Compiled) (g : Rule.Registry) (v : Inventory) (runId : String) (t : Timing)
    (cancelled : Bool) : Except Error Result × Record :=
  let steps := stepsOf (outcomeOf g v cancelled) c.enabledRules
  let out := conclude c g.ids v runId steps
  (out.mapError (Error.context "audit run failed"),
    ⟨logOf c v t runId steps out, eventsOf c v t steps out, traceOf c v runId steps out⟩)

/-! ## 5. Runs that are called off on their way -/

/-- When a run is called off: before an entry, or between the run's look at it and that of its rule
at the elements.  Entries are counted from zero. -/
inductive Stop where
  | before (entry : Nat)
  | inside (entry : Nat)
deriving Repr, DecidableEq, Inhabited

/-- What becomes of an entry whose rule has been called off. -/
def interruptedOutcome (g : Rule.Registry) (v : Inventory) (r : RuleEntry) : Outcome :=
  match g.lookup r.id with
  | none => .unknown
  | some rule => .ofEvaluation (rule.evaluation v r.options true)

/-- What becomes of the entry at a place. -/
def outcomeAt (g : Rule.Registry) (v : Inventory) (stop : Option Stop) (place : Nat)
    (r : RuleEntry) : Outcome :=
  match stop with
  | none => outcomeOf g v false r
  | some (.before k) => outcomeOf g v (decide (k ≤ place)) r
  | some (.inside k) =>
    if place == k then interruptedOutcome g v r else outcomeOf g v (decide (k < place)) r

/-- The steps through some entries from a place on, up to the first that does not end with
findings. -/
def stepsFrom (outcome : Nat → RuleEntry → Outcome) (place : Nat) : List RuleEntry → List Step
  | [] => []
  | r :: rs =>
    match outcome place r with
    | .found fs => ⟨r, .found fs⟩ :: stepsFrom outcome (place + 1) rs
    | o => [⟨r, o⟩]

/-- **Runs the enabled rules on an inventory until the run is called off**, if it is. -/
def runUntil (c : Compiled) (g : Rule.Registry) (v : Inventory) (runId : String) (t : Timing)
    (stop : Option Stop) : Except Error Result × Record :=
  let steps := stepsFrom (outcomeAt g v stop) 0 c.enabledRules
  let out := conclude c g.ids v runId steps
  (out.mapError (Error.context "audit run failed"),
    ⟨logOf c v t runId steps out, eventsOf c v t steps out, traceOf c v runId steps out⟩)

/-! ## 6. Runs without an inventory -/

/-- Whether the rule of an entry gets ready and so is to look at the inventory. -/
def looks (g : Rule.Registry) (r : RuleEntry) : Bool :=
  (g.lookup r.id).any fun rule => (rule.prepare r.options).isOk

/-- What a run tells about itself that is stopped in its first rule. -/
def stoppedRecord (c : Compiled) (runId : String) : Record where
  log := [startLog c 0 runId]
  events := []
  trace :=
    ⟨[(Span.started "docguard.audit.run" none).interrupt .missing,
      (Span.started "docguard.rule.evaluate" (some 0)).interrupt .missing], [1, 0]⟩

/-- **Runs the enabled rules on an inventory that may be missing.**  A rule that is to look at one
which is missing stops the program; apart from that it passes for one without elements. -/
def runOn (c : Compiled) (g : Rule.Registry) (v : Option Inventory) (runId : String) (t : Timing)
    (cancelled : Bool) : Except Error (Except Error Result) × Record :=
  if v.isNone && !cancelled && c.enabledRules.head?.any (looks g) then
    (.error .missing, stoppedRecord c runId)
  else
    let (out, record) := run c g (v.getD .empty) runId t cancelled
    (.ok out, record)

end DocAudit.Audit
