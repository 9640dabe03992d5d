import DocAudit.Policy.Resolve

/-!
# Which severity a finding gets

The sources of a severity come one after the other, and a later one replaces what the earlier ones
made of it; only a policy that shifts keeps what it finds.

* `adjustAll` is a run of the policies without their suppressions; `applyPolicies_eq_reported` says
  that a reported finding has the severity that it leaves;
* `adjustAll_from_set`: a policy that sets a severity makes the earlier ones forgotten, and
  `adjustAll_of_no_set`: without such a policy there are only shifts;
* `StartsAt`: the severity with which the policies begin;
* `severity_from_last_source`: the severity of a reported finding, by the last source that replaces.
-/

namespace DocAudit.Policy

variable {c : Compiled} {r : RuleEntry} {e : Element} {p : AnnotationPolicy} {s t : Severity}

/-! ## 1. Policies that set and policies that shift -/

/-- A policy that applies to an element and gives the findings on it a severity. -/
def Sets (p : AnnotationPolicy) (e : Element) : Prop :=
  p.applies e = true ∧ p.effect = .setSeverity

/-- The distances of the policies that apply to an element and shift, in the order of the
policies. -/
def shiftsOn (e : Element) (ps : List AnnotationPolicy) : List Int64 :=
  (ps.filter fun p => p.applies e && p.effect == .shiftSeverity).map (·.shift)

/-- A severity moved by some distances, one after the other. -/
def shiftAll (s : Severity) (ns : List Int64) : Severity := ns.foldl Severity.shift s

/-- The severity that policies leave, whether or not they suppress. -/
def adjustAll (e : Element) (ps : List AnnotationPolicy) (s : Severity) : Severity :=
  ps.foldl (fun s p => if p.applies e then p.adjust s else s) s

theorem adjustAll_cons (p : AnnotationPolicy) (ps : List AnnotationPolicy) :
    adjustAll e (p :: ps) s = adjustAll e ps (if p.applies e then p.adjust s else s) := rfl

/-- **A finding that the policies report has the severity that they leave.** -/
theorem applyPolicies_eq_reported {ruleId : String} :
    ∀ {ps : List AnnotationPolicy} {i : Nat} {s : Severity},
      applyPolicies ruleId e i ps s = .reported t → t = adjustAll e ps s
  | [], _, _, h => by
      cases h
      rfl
  | p :: ps, i, s, h => by
      rw [adjustAll_cons]
      unfold applyPolicies at h
      split at h
      · rename_i happlies
        rw [if_pos happlies]
        split at h
        · cases h
        · exact applyPolicies_eq_reported h
      · rename_i happlies
        rw [if_neg happlies]
        exact applyPolicies_eq_reported h

/-- **The policies before one that sets a severity are forgotten.** -/
theorem adjustAll_from_set {before after : List AnnotationPolicy} (h : Sets p e) :
    adjustAll e (before ++ p :: after) s = adjustAll e after p.toSeverity := by
  have hset : p.adjust (adjustAll e before s) = p.toSeverity := by
    simp [AnnotationPolicy.adjust, h.2]
  calc adjustAll e (before ++ p :: after) s
      = adjustAll e (p :: after) (adjustAll e before s) := List.foldl_append
    _ = adjustAll e after (p.adjust (adjustAll e before s)) := by
        rw [adjustAll_cons, if_pos h.1]
    _ = adjustAll e after p.toSeverity := by rw [hset]

/-- **Where no policy sets a severity, the applying ones only shift it.** -/
theorem adjustAll_of_no_set : ∀ {ps : List AnnotationPolicy} {s : Severity},
    (∀ p ∈ ps, ¬ Sets p e) → adjustAll e ps s = shiftAll s (shiftsOn e ps)
  | [], _, _ => rfl
  | p :: ps, s, h => by
      rw [List.forall_mem_cons] at h
      have ih := fun s => adjustAll_of_no_set (s := s) h.2
      rw [adjustAll_cons, ih]
      by_cases happlies : p.applies e = true
      · have hset : p.effect ≠ .setSeverity := fun heffect => h.1 ⟨happlies, heffect⟩
        by_cases hshift : p.effect = .shiftSeverity
        · have hne : Effect.shiftSeverity ≠ .setSeverity := by decide
          simp [AnnotationPolicy.adjust, shiftsOn, shiftAll, happlies, hshift, hne]
        · simp [AnnotationPolicy.adjust, shiftsOn, happlies, hset, hshift]
      · simp [shiftsOn, happlies]

/-! ## 2. Before the policies -/

/-- What holds of some item of a list holds of a last one. -/
theorem exists_last {α : Type} {P : α → Prop} {xs : List α} (h : ∃ x ∈ xs, P x) :
    ∃ before x after, xs = before ++ x :: after ∧ P x ∧ ∀ y ∈ after, ¬ P y := by
  induction xs with
  | nil => exact absurd h (by simp)
  | cons x xs ih =>
    by_cases hlater : ∃ y ∈ xs, P y
    · obtain ⟨before, y, after, rfl, hy, hlast⟩ := ih hlater
      exact ⟨x :: before, y, after, rfl, hy, hlast⟩
    · obtain ⟨y, hy, hP⟩ := h
      rcases List.mem_cons.mp hy with rfl | hy
      · exact ⟨[], y, xs, rfl, hP, fun z hz hP => hlater ⟨z, hz, hP⟩⟩
      · exact absurd ⟨y, hy, hP⟩ hlater

/-- **The severity with which the policies begin**: that of the rule entry, if it has one; else that
of the last override that picks the element; else that of the element's visibility. -/
inductive StartsAt (c : Compiled) (r : RuleEntry) (e : Element) : Severity → Prop
  | own (has : r.severity.text ≠ "") : StartsAt c r e r.severity
  | overridden {before : List Override} {o : Override} {after : List Override}
      (lacks : r.severity.text = "") (split : c.overrides = before ++ o :: after)
      (picks : meets o.condition e = true) (last : ∀ o' ∈ after, meets o'.condition e = false) :
      StartsAt c r e o.severity
  | byVisibility {s : Severity} (lacks : r.severity.text = "")
      (unpicked : ∀ o ∈ c.overrides, meets o.condition e = false)
      (base : c.visibilitySeverity? e.visibility = some s) : StartsAt c r e s

theorem applyOverrides_append (os os' : List Override) (s : Severity) :
    applyOverrides e (os ++ os') s = applyOverrides e os' (applyOverrides e os s) :=
  List.foldl_append

theorem applyOverrides_cons (o : Override) (os : List Override) (s : Severity) :
    applyOverrides e (o :: os) s =
      applyOverrides e os (if meets o.condition e then o.severity else s) := rfl

theorem applyOverrides_of_none : ∀ {os : List Override} {s : Severity},
    (∀ o ∈ os, meets o.condition e = false) → applyOverrides e os s = s
  | [], _, _ => rfl
  | o :: os, s, h => by
      rw [List.forall_mem_cons] at h
      rw [applyOverrides_cons, h.1]
      exact applyOverrides_of_none h.2

/-- The last override that picks the element replaces what stands before it. -/
theorem applyOverrides_of_last {before after : List Override} {o : Override}
    (picks : meets o.condition e = true) (last : ∀ o' ∈ after, meets o'.condition e = false) :
    applyOverrides e (before ++ o :: after) s = o.severity := by
  rw [applyOverrides_append, applyOverrides_cons, if_pos picks, applyOverrides_of_none last]

/-- The overrides leave what a rule entry without a severity starts at. -/
theorem startsAt_applyOverrides {base : Severity} (lacks : r.severity.text = "")
    (hbase : c.visibilitySeverity? e.visibility = some base) :
    StartsAt c r e (applyOverrides e c.overrides base) := by
  by_cases hpicked : ∃ o ∈ c.overrides, meets o.condition e = true
  · obtain ⟨before, o, after, hsplit, hpicks, hlast⟩ := exists_last hpicked
    have hlast' : ∀ o' ∈ after, meets o'.condition e = false := fun o' ho' =>
      Bool.eq_false_iff.mpr (hlast o' ho')
    rw [hsplit, applyOverrides_of_last hpicks hlast']
    exact .overridden lacks hsplit hpicks hlast'
  · have hunpicked : ∀ o ∈ c.overrides, meets o.condition e = false := fun o ho =>
      Bool.eq_false_iff.mpr fun hpicks => hpicked ⟨o, ho, hpicks⟩
    rw [applyOverrides_of_none hunpicked]
    exact .byVisibility lacks hunpicked hbase

/-- **A reported finding has what the policies leave of the severity with which they begin.** -/
theorem exists_startsAt_of_reported (h : c.verdictInScope r e = .reported s) :
    ∃ start, StartsAt c r e start ∧ s = adjustAll e c.policies start := by
  unfold Compiled.verdictInScope at h
  dsimp only at h
  by_cases hown : r.severity.text = ""
  · cases hbase : c.visibilitySeverity? e.visibility with
    | none => simp [hbase, hown] at h
    | some base =>
      simp only [hbase, hown] at h
      exact ⟨_, startsAt_applyOverrides hown hbase, applyPolicies_eq_reported h⟩
  · have hne : (r.severity.text == "") = false := beq_eq_false_iff_ne.mpr hown
    simp only [hne, Bool.and_false] at h
    exact ⟨_, .own hown, applyPolicies_eq_reported h⟩

/-! ## 3. The whole -/

/-- **The severity of a reported finding comes from the last source that replaces.**  If policies
that apply set a severity, it is what the shifts behind the last of them make of its severity: with
that policy and those behind it given, whatever else the configuration and the rule entry say, the
severity is the same.  If none does, it is what all the applying shifts make of the severity with
which the policies begin. -/
theorem severity_from_last_source (h : c.verdictInScope r e = .reported s) :
    ((∃ p ∈ c.policies, Sets p e) → ∃ before p after,
      c.policies = before ++ p :: after ∧ Sets p e ∧ (∀ q ∈ after, ¬ Sets q e) ∧
      s = shiftAll p.toSeverity (shiftsOn e after) ∧
      ∀ (c' : Compiled) r' before' s', c'.policies = before' ++ p :: after →
        c'.verdictInScope r' e = .reported s' → s' = s) ∧
    ((∀ p ∈ c.policies, ¬ Sets p e) → ∃ start,
      StartsAt c r e start ∧ s = shiftAll start (shiftsOn e c.policies)) := by
  obtain ⟨start, hstart, hs⟩ := exists_startsAt_of_reported h
  refine ⟨fun hset => ?_, fun hnone => ⟨start, hstart, ?_⟩⟩
  · obtain ⟨before, p, after, hsplit, hp, hlast⟩ := exists_last hset
    rw [hsplit, adjustAll_from_set hp, adjustAll_of_no_set hlast] at hs
    refine ⟨before, p, after, hsplit, hp, hlast, hs, fun c' r' before' s' hsplit' h' => ?_⟩
    obtain ⟨start', -, hs'⟩ := exists_startsAt_of_reported h'
    rw [hsplit', adjustAll_from_set hp, adjustAll_of_no_set hlast] at hs'
    rw [hs', hs]
  · rw [hs, adjustAll_of_no_set hnone]

/-- The set of the pattern `Deprecated`. -/
def deprecatedSet : Pattern.PatternSet :=
  (Pattern.PatternSet.compile ["Deprecated"]).toOption.getD .empty

/-- A policy on deprecated elements. -/
def onDeprecated (effect : Effect) (severity : Severity) (distance : Int64) : AnnotationPolicy :=
  ⟨deprecatedSet, [], effect, [], severity, distance⟩

/-- A configuration whose policies shift, set a severity and shift again, with a policy of an
unknown effect among them. -/
def mixedPolicies : Compiled where
  projectRoot := "."
  scan := ⟨none, none, none, none, none, .none, .none, [.pub], false⟩
  byVisibility := [(.pub, .info)]
  overrides := [⟨none, .error⟩]
  policies := [onDeprecated .shiftSeverity ⟨""⟩ (-1), onDeprecated .setSeverity .warn 0,
    onDeprecated ⟨"KEEP"⟩ .info 0, onDeprecated .shiftSeverity ⟨""⟩ 2,
    onDeprecated .shiftSeverity ⟨""⟩ (-1)]
  rules := []
  failOn := .error

/-- A deprecated function. -/
def deprecatedFunction : Element :=
  ⟨.function, "m.F", "m.F", "F", "a.go", 1, .pub, [.function], [], "m", "", ["Deprecated"]⟩

/-- A rule entry without a severity of its own. -/
def plainEntry : RuleEntry := ⟨"doc-presence", true, ⟨""⟩, none, none⟩

/-- Up two and down one from the middle is the middle, as the way up ends at the top. -/
theorem severity_from_last_source_mixed :
    mixedPolicies.verdictInScope plainEntry deprecatedFunction = .reported .warn ∧
      (∃ p ∈ mixedPolicies.policies, Sets p deprecatedFunction) ∧
      ∃ before p after, mixedPolicies.policies = before ++ p :: after ∧
        Sets p deprecatedFunction ∧ (∀ q ∈ after, ¬ Sets q deprecatedFunction) ∧
        Severity.warn = shiftAll p.toSeverity (shiftsOn deprecatedFunction after) := by
  have hverdict : mixedPolicies.verdictInScope plainEntry deprecatedFunction = .reported .warn := by
    decide +kernel
  have hset : ∃ p ∈ mixedPolicies.policies, Sets p deprecatedFunction :=
    ⟨onDeprecated .setSeverity .warn 0, by simp [mixedPolicies], by decide +kernel, rfl⟩
  obtain ⟨before, p, after, hsplit, hp, hlast, hs, -⟩ :=
    (severity_from_last_source hverdict).1 hset
  exact ⟨hverdict, hset, before, p, after, hsplit, hp, hlast, hs⟩

end DocAudit.Policy
