import DocAudit.Policy.Resolve
import Mathlib.Data.List.Perm.Basic

/-!
# Whether a finding is reported

`Compiled.resolve` decides at once whether a finding is reported and how severe it is.  This file
says the first part alone.

* `applyPolicies_reports_iff`: the policies report a finding if none of them suppresses it, wherever
  it stands and whatever the others do to the severity;
* `reports_iff_and_invariant`: a finding is reported if the element meets the rule's condition, its
  visibility or the rule has a severity, and no policy suppresses it; neither the order of the
  policies nor the overrides have a part in that.
-/

namespace DocAudit.Policy

/-- Whether a finding is reported. -/
def Verdict.isReported (v : Verdict) : Bool := v.severity?.isSome

@[simp] theorem isReported_reported (s : Severity) : (Verdict.reported s).isReported = true := rfl

@[simp] theorem isReported_outOfScope : Verdict.outOfScope.isReported = false := rfl

@[simp] theorem isReported_unconfigured : Verdict.unconfigured.isReported = false := rfl

@[simp] theorem isReported_suppressed (i : Nat) : (Verdict.suppressed i).isReported = false := rfl

/-! ## 1. Suppression -/

/-- A policy that applies to an element and drops every finding on it, or those of a rule. -/
def Suppresses (p : AnnotationPolicy) (ruleId : String) (e : Element) : Prop :=
  p.applies e = true ∧
    (p.effect = .suppress ∨ p.effect = .suppressRules ∧ (p.rules = [] ∨ ruleId ∈ p.rules))

theorem suppresses_iff (p : AnnotationPolicy) (ruleId : String) (e : Element) :
    Suppresses p ruleId e ↔ p.applies e = true ∧ p.drops ruleId = true := by
  simp [Suppresses, AnnotationPolicy.drops]

/-- **The policies report a finding if none of them suppresses it.** -/
theorem applyPolicies_reports_iff (ruleId : String) (e : Element) :
    ∀ (ps : List AnnotationPolicy) (i : Nat) (s : Severity),
      (applyPolicies ruleId e i ps s).isReported = true ↔ ∀ p ∈ ps, ¬ Suppresses p ruleId e
  | [], _, s => by simp [applyPolicies]
  | p :: ps, i, s => by
      have ih := applyPolicies_reports_iff ruleId e ps (i + 1)
      rw [List.forall_mem_cons, suppresses_iff, applyPolicies]
      by_cases ha : p.applies e = true
      · by_cases hd : p.drops ruleId = true
        · simp [ha, hd]
        · simp [ha, hd, ih]
      · simp [ha, ih]

/-! ## 2. Severities to start from -/

theorem visibilitySeverity?_isSome_iff (c : Compiled) (v : Visibility) :
    (c.visibilitySeverity? v).isSome = true ↔ ∃ s, (v, s) ∈ c.byVisibility := by
  unfold Compiled.visibilitySeverity?
  rw [Option.isSome_map, List.find?_isSome]
  constructor
  · rintro ⟨⟨v', s⟩, hm, hv⟩
    obtain rfl : v' = v := by simpa using hv
    exact ⟨s, hm⟩
  · rintro ⟨s, hm⟩
    exact ⟨(v, s), hm, by simp⟩

theorem verdictInScope_reports_iff (c : Compiled) (r : RuleEntry) (e : Element) :
    (c.verdictInScope r e).isReported = true ↔
      ((∃ s, (e.visibility, s) ∈ c.byVisibility) ∨ r.severity.text ≠ "") ∧
        ∀ p ∈ c.policies, ¬ Suppresses p r.id e := by
  rw [← visibilitySeverity?_isSome_iff]
  unfold Compiled.verdictInScope
  cases hb : c.visibilitySeverity? e.visibility with
  | some s => simp [applyPolicies_reports_iff]
  | none =>
    by_cases hr : r.severity.text = ""
    · simp [hr]
    · simp [hr, applyPolicies_reports_iff]

/-! ## 3. The decision -/

theorem resolve_reports_iff (c : Compiled) (r : RuleEntry) (e : Element) :
    (c.resolve r e).isReported = true ↔
      meets r.condition e = true ∧
        ((∃ s, (e.visibility, s) ∈ c.byVisibility) ∨ r.severity.text ≠ "") ∧
          ∀ p ∈ c.policies, ¬ Suppresses p r.id e := by
  rw [← verdictInScope_reports_iff]
  unfold Compiled.resolve
  by_cases hm : meets r.condition e = true
  · simp [hm]
  · simp [hm]

/-- **When a finding is reported**, and that neither the order of the policies nor the overrides
decide it. -/
theorem reports_iff_and_invariant (c : Compiled) (r : RuleEntry) (e : Element) :
    ((c.resolve r e).isReported = true ↔
      meets r.condition e = true ∧
        ((∃ s, (e.visibility, s) ∈ c.byVisibility) ∨ r.severity.text ≠ "") ∧
          ∀ p ∈ c.policies, ¬ Suppresses p r.id e) ∧
    (∀ ps, ps.Perm c.policies →
      (({ c with policies := ps } : Compiled).resolve r e).isReported =
        (c.resolve r e).isReported) ∧
    (∀ os, (({ c with overrides := os } : Compiled).resolve r e).isReported =
        (c.resolve r e).isReported) := by
  refine ⟨resolve_reports_iff c r e, fun ps hp => ?_, fun os => ?_⟩
  · rw [Bool.eq_iff_iff, resolve_reports_iff, resolve_reports_iff]
    simp only [hp.mem_iff]
  · rw [Bool.eq_iff_iff, resolve_reports_iff, resolve_reports_iff]

end DocAudit.Policy
