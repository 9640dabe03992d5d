import DocAudit.Config.Basic
import DocAudit.Error
import DocAudit.Log

/-!
# Traces

A trace is a list of spans, each a piece of work with a name, attributes, and a status.  Spans lie
inside one another: a span may have a parent.

* A span that has ended does not change any more, and the status `ok` is final.
* `Tracer.ofConfig` decides whether spans are recorded at all.
-/

namespace DocAudit.Trace

open DocAudit.Decimal

/-! ## 1. Spans -/

/-- How the work of a span went. -/
inductive Status where
  | unset
  | error (description : String)
  | ok
deriving Repr, DecidableEq, Inhabited

/-- The status after a further one: nothing replaces `ok`. -/
def Status.followedBy : Status → Status → Status
  | .ok, _ => .ok
  | s, .unset => s
  | _, s => s

/-- A span. -/
structure Span where
  name : String
  /-- The place of the parent among the spans of the trace. -/
  parent : Option Nat
  attributes : List Log.Attr
  /-- The messages of the errors met on the way. -/
  errors : List String
  status : Status
deriving Repr, DecidableEq, Inhabited

namespace Span

/-- A span at its start. -/
def started (name : String) (parent : Option Nat) : Span := ⟨name, parent, [], [], .unset⟩

/-- The span with an attribute, in place of an earlier one of that name. -/
def set (s : Span) (a : Log.Attr) : Span :=
  { s with attributes := s.attributes.filter (·.key != a.key) ++ [a] }

/-- The span with several attributes. -/
def setAll (s : Span) (as : List Log.Attr) : Span := as.foldl Span.set s

/-- The span with the result of its work: an error is recorded besides. -/
def conclude (s : Span) : Option Error → Span
  | some e =>
    { s with errors := s.errors ++ [e.message], status := s.status.followedBy (.error e.message) }
  | none => { s with status := s.status.followedBy .ok }

/-- The span with what stopped the program in its work; it gets no status. -/
def interrupt (s : Span) (e : Error) : Span := { s with errors := s.errors ++ [e.message] }

end Span

/-- The attributes of a scan. -/
def scanAttrs (root : String) (elements : Int) : List Log.Attr :=
  [.ofText "docguard.root" root, .ofInt "docguard.elements" elements]

/-- The attributes of a run. -/
def runAttrs (runId : String) (elements issues : Int) : List Log.Attr :=
  [.ofText "docguard.run_id" runId, .ofInt "docguard.elements" elements,
    .ofInt "docguard.issues" issues]

/-- The attributes of the evaluation of a rule. -/
def ruleAttrs (ruleId : String) (findings suppressed : Int) : List Log.Attr :=
  [.ofText "docguard.rule_id" ruleId, .ofInt "docguard.findings" findings,
    .ofInt "docguard.suppressed" suppressed]

/-! ## 2. Traces -/

/-- Spans in the order of their starts, and the places of those that have ended, in the order of
their ends. -/
structure Recording where
  spans : List Span
  ended : List Nat
deriving Repr, DecidableEq, Inhabited

namespace Recording

/-- The trace without spans. -/
def empty : Recording := ⟨[], []⟩

/-- The trace with one more span. -/
def start (t : Recording) (name : String) (parent : Option Nat) : Recording :=
  { t with spans := t.spans ++ [.started name parent] }

/-- The trace with a span changed, unless it has ended. -/
def change (t : Recording) (i : Nat) (f : Span → Span) : Recording :=
  if t.ended.contains i then t else { t with spans := t.spans.modify i f }

/-- The trace with a span ended. -/
def finish (t : Recording) (i : Nat) : Recording :=
  if t.ended.contains i || t.spans.length ≤ i then t else { t with ended := t.ended ++ [i] }

/-- The spans that have ended, in the order of their ends, each with the name of its parent if
that has ended too. -/
def finished (t : Recording) : List (Span × Option String) :=
  t.ended.filterMap fun i => do
    let s ← t.spans[i]?
    return (s, do
      let p ← s.parent
      if t.ended.contains p then (t.spans[p]?).map (·.name) else none)

end Recording

/-! ## 3. Tracers -/

/-- Which spans are recorded. -/
inductive Sampling where
  /-- There is no trace. -/
  | off
  | none
  /-- The share of traces that are recorded; which ones is left to chance. -/
  | share (ratio : Binary64)
  | all
deriving Repr, DecidableEq, Inhabited

/-- A tracer: which spans it records, and the name of the service that it gives to them. -/
structure Tracer where
  sampling : Sampling
  service : String
deriving Repr, DecidableEq, Inhabited

namespace Tracer

/-- The tracer that records nothing. -/
def off : Tracer := ⟨.off, ""⟩

/-- Whether there is a trace. -/
def enabled (t : Tracer) : Bool := t.sampling != .off

/-- Whether every span is recorded. -/
def recordsAll (t : Tracer) : Bool := t.sampling == .all

/-- The sampling of a ratio between zero and one. -/
def samplingOf (ratio : Binary64) : Except Error Sampling :=
  if (ratio.le .zero && !Binary64.zero.le ratio) || (Binary64.one.le ratio && !ratio.le .one) then
    .error (.plain ("sample ratio must be between 0.0 and 1.0, got " ++ fixed 6 ratio))
  else if ratio == .one then .ok .all
  else if ratio.le .zero then .ok .none
  else .ok (.share ratio)

/-- **The tracer of a configuration**, which may be absent. -/
def ofConfig (c : Option Config.Tracing) : Except Error Tracer :=
  match c with
  | none => .error (.plain "tracing config is nil")
  | some c =>
    if !c.enabled then .ok off
    else
      match samplingOf c.sampleRatio with
      | .error e => .error (.context "failed to create sampler" e)
      | .ok s => .ok ⟨s, if c.serviceName == "" then "docguard" else c.serviceName⟩

end Tracer

/-- The number of characters of the id of a trace. -/
def idLength (t : Tracer) : Nat := if t.enabled then 32 else 0

end DocAudit.Trace
