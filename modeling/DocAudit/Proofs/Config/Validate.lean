import DocAudit.Config.Validate
import Mathlib.Logic.Basic

/-!
# Configurations without faults

When a constraint reports nothing, said without its messages, and what that gives for a whole
configuration.

* `eachItem_eq_nil_iff`: a list has no faults if none of its items has;
* `severities_of_faults_eq_nil`: in a configuration without faults every severity that can be given
  to a finding is on the scale.
-/

namespace DocAudit

open Text

namespace Config

/-! ## 1. Single constraints -/

@[simp] theorem required_eq_nil_iff (path value : String) : required path value = [] ↔ value ≠ "" := by
  unfold required
  by_cases h : value = "" <;> simp [h]

@[simp] theorem oneOf_eq_nil_iff (path : String) (words : List String) (value : String) :
    oneOf path words value = [] ↔ value ∈ words := by
  unfold oneOf
  by_cases h : value ∈ words <;> simp [h]

@[simp] theorem requiredOneOf_eq_nil_iff (path : String) (words : List String) (value : String) :
    requiredOneOf path words value = [] ↔ value ≠ "" ∧ value ∈ words := by
  unfold requiredOneOf
  by_cases h : value = "" <;> simp [h]

@[simp] theorem optionalOneOf_eq_nil_iff (path : String) (words : List String) (value : String) :
    optionalOneOf path words value = [] ↔ value = "" ∨ value ∈ words := by
  unfold optionalOneOf
  by_cases h : value = "" <;> simp [h]

/-- A list has no faults if none of its items has, each under its own path. -/
theorem eachItem_eq_nil_iff {α : Type} (path : String) (check : String → α → List FieldError) :
    ∀ (xs : List α) (i : Nat), eachItem path check i xs = [] ↔
      ∀ j x, xs[j]? = some x → check (itemPath path (i + j)) x = []
  | [], _ => by simp [eachItem]
  | x :: xs, i => by
      rw [eachItem, List.append_eq_nil_iff, eachItem_eq_nil_iff path check xs (i + 1)]
      constructor
      · rintro ⟨hx, hxs⟩ j y hj
        cases j with
        | zero =>
          obtain rfl : x = y := by simpa using hj
          exact hx
        | succ j =>
          have := hxs j y (by simpa using hj)
          rwa [Nat.add_right_comm] at this
      · intro h
        refine ⟨h 0 x rfl, fun j y hj => ?_⟩
        rw [Nat.add_right_comm]
        exact h (j + 1) y hj

/-- Every item of a list without faults passes the check, under some path. -/
theorem mem_of_eachItem_eq_nil {α : Type} {path : String} {check : String → α → List FieldError}
    {xs : List α} {i : Nat} (h : eachItem path check i xs = []) {x : α} (hx : x ∈ xs) :
    ∃ p, check p x = [] := by
  obtain ⟨j, hj⟩ := List.mem_iff_getElem?.mp hx
  exact ⟨_, (eachItem_eq_nil_iff path check xs i).mp h j x hj⟩

/-! ## 2. Severities -/

theorem mem_severityWords_iff (s : Severity) : s.text ∈ severityWords ↔ s ∈ Severity.scale := by
  unfold severityWords
  rw [List.mem_map]
  constructor
  · rintro ⟨s', hs', h⟩
    obtain rfl : s' = s := by
      cases s'
      cases s
      exact congrArg Severity.mk h
    exact hs'
  · exact fun h => ⟨s, h, rfl⟩

theorem payload_of_faults_eq_nil {path : String} {p : Policy} (h : p.faults path = [])
    (he : p.effect = .setSeverity) : p.toSeverity ∈ Severity.scale := by
  unfold Policy.faults at h
  simp only [List.append_eq_nil_iff, optionalOneOf_eq_nil_iff] at h
  obtain ⟨⟨-, hto⟩, hpay⟩ := h
  rcases hto with hempty | hmem
  · simp [Policy.payloadFaults, he, hempty] at hpay
  · exact (mem_severityWords_iff _).mp hmem

theorem rules_of_faults_eq_nil {path : String} {rs : List RuleEntry} (h : rulesFaults path rs = [])
    {r : RuleEntry} (hr : r ∈ rs) : r.severity.text = "" ∨ r.severity ∈ Severity.scale := by
  unfold rulesFaults at h
  split at h
  · obtain ⟨p, hp⟩ := mem_of_eachItem_eq_nil h hr
    simp only [RuleEntry.faults, List.append_eq_nil_iff, optionalOneOf_eq_nil_iff] at hp
    exact hp.1.2.imp id (mem_severityWords_iff _).mp
  · simp at h

/-- **A configuration without faults has its threshold on the scale.** -/
theorem failOn_of_faults_eq_nil {c : Config} (h : c.faults = []) : c.failOn ∈ Severity.scale := by
  unfold Config.faults at h
  simp only [List.append_eq_nil_iff, requiredOneOf_eq_nil_iff] at h
  exact (mem_severityWords_iff _).mp h.1.2.2

/-- The severities of a configuration that a finding can get, each on the scale: those of the
visibilities, the overrides and the policies that set one, and those of the rule entries, which may
have none. -/
structure SeveritiesOnScale (c : Config) : Prop where
  visibilities : ∀ v s, (v, s) ∈ c.defaults.severity.byVisibility → s ∈ Severity.scale
  overrides : ∀ o ∈ c.defaults.severity.overrides, o.severity ∈ Severity.scale
  policies : ∀ p ∈ c.defaults.policies, p.effect = .setSeverity → p.toSeverity ∈ Severity.scale
  rules : ∀ r ∈ c.rules, r.severity.text = "" ∨ r.severity ∈ Severity.scale

/-- **A configuration without faults has its severities on the scale.** -/
theorem severities_of_faults_eq_nil {c : Config} (h : c.faults = []) : SeveritiesOnScale c := by
  unfold Config.faults at h
  simp only [List.append_eq_nil_iff] at h
  obtain ⟨⟨⟨⟨⟨⟨⟨-, -⟩, hvis⟩, hover⟩, hpol⟩, hrules⟩, -⟩, -⟩ := h
  refine ⟨fun v s hm => ?_, fun o ho => ?_, fun p hp he => ?_, fun r hr => ?_⟩
  · simp only [visibilityFaults, List.flatMap_eq_nil_iff, Prod.forall, List.append_eq_nil_iff,
      oneOf_eq_nil_iff] at hvis
    exact (mem_severityWords_iff s).mp (hvis v s hm).2
  · obtain ⟨path, hpath⟩ := mem_of_eachItem_eq_nil hover ho
    simp only [Override.faults, List.append_eq_nil_iff, requiredOneOf_eq_nil_iff] at hpath
    exact (mem_severityWords_iff _).mp hpath.2.2
  · obtain ⟨path, hpath⟩ := mem_of_eachItem_eq_nil hpol hp
    exact payload_of_faults_eq_nil hpath he
  · exact rules_of_faults_eq_nil hrules hr

end Config

theorem validate_eq_ok_iff (c : Config) : validate (some c) = .ok () ↔ c.faults = [] := by
  unfold validate
  cases h : c.faults with
  | nil => simp [h]
  | cons f fs => simp [h]

end DocAudit
