import DocAudit.Log
import DocAudit.Policy.Selector

/-!
# From findings to severities

`resolve` decides whether a rule's finding on an element is reported, and how severe it is: the
visibility gives a severity, the last override that picks the element replaces it, the rule's own
severity replaces that, and then the annotation policies apply in their order.
-/

namespace DocAudit.Policy

/-- What becomes of a finding. -/
inductive Verdict where
  | reported (severity : Severity)
  /-- The element does not meet the rule's condition. -/
  | outOfScope
  /-- Neither the visibility nor the rule has a severity. -/
  | unconfigured
  /-- The policy at this place drops it. -/
  | suppressed (policy : Nat)
deriving Repr, DecidableEq, Inhabited

/-- The severity of a reported finding. -/
def Verdict.severity? : Verdict → Option Severity
  | .reported s => some s
  | _ => none

/-- Whether a policy drops the findings of a rule on the elements it applies to. -/
def AnnotationPolicy.drops (p : AnnotationPolicy) (ruleId : String) : Bool :=
  p.effect == .suppress ||
    (p.effect == .suppressRules && (p.rules.isEmpty || p.rules.contains ruleId))

/-- The severity after a policy that does not drop the finding. -/
def AnnotationPolicy.adjust (p : AnnotationPolicy) (s : Severity) : Severity :=
  if p.effect == .setSeverity then p.toSeverity
  else if p.effect == .shiftSeverity then s.shift p.shift
  else s

/-- The policies from the place `i` on, applied to a severity. -/
def applyPolicies (ruleId : String) (e : Element) (i : Nat) :
    List AnnotationPolicy → Severity → Verdict
  | [], s => .reported s
  | p :: ps, s =>
    if p.applies e then
      if p.drops ruleId then .suppressed i else applyPolicies ruleId e (i + 1) ps (p.adjust s)
    else applyPolicies ruleId e (i + 1) ps s

/-- The severity that the overrides leave. -/
def applyOverrides (e : Element) (os : List Override) (s : Severity) : Severity :=
  os.foldl (fun s o => if meets o.condition e then o.severity else s) s

/-- The severity of a visibility. -/
def Compiled.visibilitySeverity? (c : Compiled) (v : Visibility) : Option Severity :=
  (c.byVisibility.find? (·.1 == v)).map (·.2)

/-- What becomes of a rule's finding on an element that meets the rule's condition. -/
def Compiled.verdictInScope (c : Compiled) (r : RuleEntry) (e : Element) : Verdict :=
  let base := c.visibilitySeverity? e.visibility
  if base.isNone && r.severity.text == "" then .unconfigured
  else
    let s := applyOverrides e c.overrides (base.getD ⟨""⟩)
    let s := if r.severity.text == "" then s else r.severity
    applyPolicies r.id e 0 c.policies s

/-- **What becomes of a rule's finding on an element.** -/
def Compiled.resolve (c : Compiled) (r : RuleEntry) (e : Element) : Verdict :=
  if meets r.condition e then c.verdictInScope r e else .outOfScope

/-- The log entry about a finding that is not reported. -/
def Verdict.remark? (r : RuleEntry) (e : Element) : Verdict → Option Log.Entry
  | .unconfigured =>
    some ⟨.debug, "no severity configured, suppressing",
      [.ofText "rule_id" r.id, .ofText "element" e.qualifiedName,
        .ofText "visibility" e.visibility.text]⟩
  | .suppressed i =>
    some ⟨.debug, "finding suppressed by annotation policy",
      [.ofInt "policy" i, .ofText "rule_id" r.id, .ofText "element" e.qualifiedName]⟩
  | _ => none

/-- Whether an issue reaches a threshold. -/
def shouldFail (issues : List Issue) (threshold : Severity) : Bool :=
  issues.any fun i => i.severity.atLeast threshold

end DocAudit.Policy
