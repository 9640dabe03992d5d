import DocAudit.Proofs.Audit.Result
import DocAudit.Proofs.Policy.Scale

/-!
# The severities of issues

Validating, compiling and running together: no issue of a run has a severity off the scale.

* `exists_resolve_of_mem`: an issue is a reported finding of a rule entry;
* `bySeverity_keys`: issues on the scale are counted under the three severities of the scale;
* `issues_on_scale`: a run under a valid configuration has no other issues.
-/

namespace DocAudit.Audit

open DocAudit.Policy

variable {c : Compiled} {g : Rule.Registry} {v : Inventory} {runId : String} {t : Timing}
  {cancelled : Bool} {r : Result}

theorem mem_reportedBy_iff {e : RuleEntry} {fs : List Finding} {i : Issue} :
    i ∈ reportedBy c e fs ↔
      ∃ f ∈ fs, c.resolve e f.element = .reported i.severity ∧
        i = ⟨i.severity, e.id, f.message, f.element⟩ := by
  unfold reportedBy
  rw [List.mem_filterMap]
  refine exists_congr fun f => and_congr_right fun _ => ?_
  cases h : c.resolve e f.element with
  | reported s =>
    constructor
    · intro hs
      cases hs
      exact ⟨rfl, rfl⟩
    · rintro ⟨hs, hi⟩
      cases hs
      exact congrArg some hi.symm
  | outOfScope => simp
  | unconfigured => simp
  | suppressed k => simp

/-- An issue of a run is a reported finding of a rule entry. -/
theorem exists_resolve_of_mem (h : (run c g v runId t cancelled).1 = .ok r) {i : Issue}
    (hi : i ∈ r.issues) : ∃ e ∈ c.rules, c.resolve e i.element = .reported i.severity := by
  rw [issues_of_run h] at hi
  obtain ⟨e, he, hie⟩ := List.mem_flatMap.mp (List.mem_mergeSort.mp hi)
  obtain ⟨f, -, hres, heq⟩ := mem_reportedBy_iff.mp hie
  refine ⟨e, (List.mem_filter.mp he).1, ?_⟩
  rw [heq]
  exact hres

theorem bySeverity_keys {issues : List Issue} (h : ∀ i ∈ issues, i.severity ∈ Severity.scale) :
    (bySeverity issues).map (·.1) = Severity.scale := by
  have hnone : (issues.map (·.severity)).removeAll Severity.scale = [] := by
    rw [List.removeAll, List.filter_eq_nil_iff]
    intro s hs
    obtain ⟨i, hi, rfl⟩ := List.mem_map.mp hs
    simpa using h i hi
  unfold bySeverity
  rw [List.eraseDups_append, hnone, List.map_map]
  rfl

/-- **Under a valid configuration every issue has a severity of the scale**, so the issues are
counted under these three. -/
theorem issues_on_scale {cfg : Config} (hv : validate (some cfg) = .ok ())
    (hc : compileChecked (some cfg) = .ok c) (h : (run c g v runId t cancelled).1 = .ok r) :
    (∀ i ∈ r.issues, i.severity = .info ∨ i.severity = .warn ∨ i.severity = .error) ∧
      (bySeverity r.issues).map (·.1) = [.info, .warn, .error] ∧
      ((bySeverity r.issues).map (·.2)).sum = r.issues.length ∧
      (∀ i ∈ r.issues, i.severity.text ≠ "" ∧ i.severity.isValid = true) := by
  have hscale : OnScale c := onScale_of_compile
    (Config.severities_of_faults_eq_nil ((validate_eq_ok_iff cfg).mp hv)) (compileChecked_eq_ok hc)
  have hall : ∀ i ∈ r.issues, i.severity ∈ Severity.scale := by
    intro i hi
    obtain ⟨e, he, hres⟩ := exists_resolve_of_mem h hi
    exact severity_mem_scale hscale he hres
  refine ⟨fun i hi => ?_, bySeverity_keys hall, sum_bySeverity _, fun i hi => ?_⟩
  · simpa [Severity.scale] using hall i hi
  · exact ⟨Severity.text_ne_empty (hall i hi), (Severity.isValid_iff _).mpr (hall i hi)⟩

/-- A configuration with an override, a rule with a severity of its own, a policy that sets a
severity, and one that shifts it far below the scale. -/
def severalSources : Config :=
  { Config.default with
    defaults := {
      severity := ⟨[(.pub, .error), (.prot, .warn)],
        [⟨some { Config.Selector.any with simpleNamePatterns := ["B.*"] }, .info⟩]⟩
      policies := [
        { Config.Policy.blank with
          annotationPattern := "Legacy", effect := .setSeverity, toSeverity := .warn },
        { Config.Policy.blank with
          annotationPattern := "Deprecated", effect := .shiftSeverity, shift := some (-700) }] }
    rules := [.named "doc-presence",
      { Config.RuleEntry.named "doc-name-prefix" with severity := .info }] }

/-- This configuration, compiled. -/
def severalCompiled : Compiled := ((compileAll severalSources).run []).1

/-- A public function with an annotation. -/
def annotatedFunction (name label : String) : Element :=
  { bareFunction "b.go" name .pub with annotations := [label] }

/-- Functions that get their severities in different ways, and one that gets none. -/
def severalFunctions : Inventory where
  elements := [bareFunction "b.go" "A" .pub, bareFunction "b.go" "Bx" .pub,
    annotatedFunction "C" "Legacy", annotatedFunction "D" "Deprecated",
    bareFunction "b.go" "E" .prot, bareFunction "a.go" "F" .pub, bareFunction "b.go" "g" .pkg]
  docs := [(⟨.function, "m.F"⟩, "Makes a thing.")]

/-- That a function has no doc comment, as an issue. -/
def missingDoc (e : Element) (s : Severity) : Issue :=
  ⟨s, "doc-presence", Rule.DocPresence.message e, e⟩

/-- What is said about these functions. -/
def severalIssues : List Issue :=
  [⟨.info, "doc-name-prefix", "Doc comment for m.F should begin with \"F\"",
      bareFunction "a.go" "F" .pub⟩,
    missingDoc (bareFunction "b.go" "A" .pub) .error,
    missingDoc (bareFunction "b.go" "Bx" .pub) .info,
    missingDoc (annotatedFunction "C" "Legacy") .warn,
    missingDoc (annotatedFunction "D" "Deprecated") .info,
    missingDoc (bareFunction "b.go" "E" .prot) .warn]

/-- The severities of the issues come from the rule, the visibility, the override, the policy that
sets one, the policy that shifts one, and the visibility again. -/
theorem issues_on_scale_several :
    validate (some severalSources) = .ok () ∧
      compileChecked (some severalSources) = .ok severalCompiled ∧
      ∃ r, (run severalCompiled .builtin severalFunctions "" .none false).1 = .ok r ∧
        r.issues = severalIssues ∧ r.stats = ⟨7, 7, 1⟩ ∧
        (bySeverity r.issues).map (·.1) = [.info, .warn, .error] ∧
        bySeverity r.issues = [(.info, 3), (.warn, 2), (.error, 1)] := by
  have hv : validate (some severalSources) = .ok () := rfl
  have hc : compileChecked (some severalSources) = .ok severalCompiled :=
    compileChecked_of_isOk (by decide +kernel)
  let steps := stepsOf (outcomeOf .builtin severalFunctions false) severalCompiled.enabledRules
  have h : (run severalCompiled .builtin severalFunctions "" .none false).1 =
      .ok (resultOf severalCompiled severalFunctions "" steps) := rfl
  have hissues : (resultOf severalCompiled severalFunctions "" steps).issues = severalIssues := by
    rw [issues_of_run h]
    exact sortIssues_of_strict (by decide +kernel) (by decide +kernel)
  have hstats : (resultOf severalCompiled severalFunctions "" steps).stats = ⟨7, 7, 1⟩ := by
    decide +kernel
  refine ⟨hv, hc, _, h, hissues, hstats, (issues_on_scale hv hc h).2.1, ?_⟩
  rw [hissues]
  decide +kernel

end DocAudit.Audit
