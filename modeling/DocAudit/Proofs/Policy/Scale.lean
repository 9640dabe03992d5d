import DocAudit.Policy.Resolve
import DocAudit.Proofs.Config.Validate
import DocAudit.Proofs.Policy.Compile
import DocAudit.Proofs.Severity

/-!
# Severities stay on the scale

A finding gets its severity from one of five sources: its visibility, an override, its rule entry, a
policy that sets one, and a policy that shifts one.  If the first four are on the scale, so is what
the fifth makes of them.

* `OnScale`: the sources of a compiled configuration are on the scale; `onScale_of_compile`: those
  of a configuration without faults are;
* `adjust_mem_scale`: a policy keeps a severity on the scale, by any distance that it shifts;
* `severity_mem_scale`: so every reported finding has a severity of the scale.
-/

namespace DocAudit.Policy

/-- The sources of severities of a compiled configuration are on the scale; a rule entry may have no
severity of its own. -/
structure OnScale (c : Compiled) : Prop where
  visibilities : ∀ v s, (v, s) ∈ c.byVisibility → s ∈ Severity.scale
  overrides : ∀ o ∈ c.overrides, o.severity ∈ Severity.scale
  policies : ∀ p ∈ c.policies, p.effect = .setSeverity → p.toSeverity ∈ Severity.scale
  rules : ∀ r ∈ c.rules, r.severity.text = "" ∨ r.severity ∈ Severity.scale

theorem onScale_of_compile {cfg : Config} {c : Compiled} (hs : cfg.SeveritiesOnScale)
    (h : compile cfg = .ok c) : OnScale c := by
  obtain ⟨hvis, hover, hpol, hrules⟩ := compile_severities h
  refine ⟨fun v s hm => ?_, fun o ho => ?_, fun p hp he => ?_, fun r hr => ?_⟩
  · rw [hvis] at hm
    exact hs.visibilities v s hm
  · have hm := List.mem_map_of_mem (f := Override.severity) ho
    rw [hover] at hm
    obtain ⟨o', ho', e⟩ := List.mem_map.mp hm
    exact e ▸ hs.overrides o' ho'
  · have hm := List.mem_map_of_mem (f := fun p : AnnotationPolicy => (p.effect, p.toSeverity)) hp
    rw [hpol] at hm
    obtain ⟨p', hp', e⟩ := List.mem_map.mp hm
    obtain ⟨e₁, e₂⟩ := Prod.mk.inj e
    exact e₂ ▸ hs.policies p' hp' (e₁.trans he)
  · have hm := List.mem_map_of_mem (f := RuleEntry.severity) hr
    rw [hrules] at hm
    obtain ⟨r', hr', e⟩ := List.mem_map.mp hm
    exact e ▸ hs.rules r' hr'

/-! ## 1. One step and a run of policies -/

/-- **A policy keeps a severity on the scale.** -/
theorem adjust_mem_scale {p : AnnotationPolicy}
    (hp : p.effect = .setSeverity → p.toSeverity ∈ Severity.scale) {s : Severity}
    (hs : s ∈ Severity.scale) : p.adjust s ∈ Severity.scale := by
  unfold AnnotationPolicy.adjust
  split_ifs with hset hshift
  · exact hp (by simpa using hset)
  · exact Severity.shift_mem_scale hs _
  · exact hs

theorem applyPolicies_mem_scale {ruleId : String} {e : Element} {s' : Severity} :
    ∀ {ps : List AnnotationPolicy} {i : Nat} {s : Severity},
      (∀ p ∈ ps, p.effect = .setSeverity → p.toSeverity ∈ Severity.scale) →
      s ∈ Severity.scale → applyPolicies ruleId e i ps s = .reported s' → s' ∈ Severity.scale
  | [], _, s, _, hs, h => by
      cases h
      exact hs
  | p :: ps, i, s, hp, hs, h => by
      rw [List.forall_mem_cons] at hp
      unfold applyPolicies at h
      split_ifs at h
      · exact applyPolicies_mem_scale hp.2 (adjust_mem_scale hp.1 hs) h
      · exact applyPolicies_mem_scale hp.2 hs h

theorem applyOverrides_mem_scale {e : Element} : ∀ {os : List Override} {s : Severity},
    (∀ o ∈ os, o.severity ∈ Severity.scale) → s ∈ Severity.scale →
      applyOverrides e os s ∈ Severity.scale
  | [], _, _, hs => hs
  | o :: os, s, ho, hs => by
      rw [List.forall_mem_cons] at ho
      show applyOverrides e os (if meets o.condition e then o.severity else s) ∈ Severity.scale
      refine applyOverrides_mem_scale ho.2 ?_
      split_ifs
      · exact ho.1
      · exact hs

/-! ## 2. Verdicts -/

theorem visibilitySeverity?_mem_scale {c : Compiled} (hc : OnScale c) {v : Visibility}
    {s : Severity} (h : c.visibilitySeverity? v = some s) : s ∈ Severity.scale := by
  unfold Compiled.visibilitySeverity? at h
  obtain ⟨⟨v', s'⟩, hf, rfl⟩ := Option.map_eq_some_iff.mp h
  exact hc.visibilities v' s' (List.mem_of_find?_eq_some hf)

/-- **A reported finding has a severity of the scale.** -/
theorem severity_mem_scale {c : Compiled} (hc : OnScale c) {r : RuleEntry} (hr : r ∈ c.rules)
    {e : Element} {s : Severity} (h : c.resolve r e = .reported s) : s ∈ Severity.scale := by
  unfold Compiled.resolve at h
  split_ifs at h
  unfold Compiled.verdictInScope at h
  rcases hc.rules r hr with hempty | hsev
  · cases hb : c.visibilitySeverity? e.visibility with
    | none => simp [hb, hempty] at h
    | some base =>
      simp only [hb, hempty] at h
      exact applyPolicies_mem_scale hc.policies
        (applyOverrides_mem_scale hc.overrides (visibilitySeverity?_mem_scale hc hb)) h
  · have hne : (r.severity.text == "") = false := by
      rw [beq_eq_false_iff_ne]
      exact Severity.text_ne_empty hsev
    simp only [hne, Bool.and_false] at h
    exact applyPolicies_mem_scale hc.policies hsev h

end DocAudit.Policy
