import DocAudit.Proofs.Pattern.Set
import DocAudit.Proofs.Policy.Compile
import DocAudit.Proofs.Policy.Occurrence

/-!
# Compiling is exact about patterns

Compiling a configuration succeeds if every pattern of it compiles on its own.  Then each compiled
set holds the patterns of its list; otherwise every faulty pattern is reported once, in order.

* `Collects`: what a part of the traversal reports, and what it returns if it reports nothing;
  `Collects.bind` puts two parts together and `collects_each` the items of a list;
* `Faithful`: a compiled configuration holds what the configuration says.
-/

namespace DocAudit

open Pattern

open Config (itemPath occurrencesFrom occurrencesIn)

/-! ## 1. Problems of occurrences -/

/-- The problem of an occurrence whose pattern does not compile on its own. -/
def Occurrence.problem? (o : Occurrence) : Option Policy.PatternProblem :=
  match PatternSet.compile [o.pattern] with
  | .ok _ => none
  | .error e => some ⟨o.path, ⟨o.pattern, o.index, e.cause⟩⟩

/-- The problems of some occurrences. -/
def problemsOf (os : List Occurrence) : List Policy.PatternProblem :=
  os.filterMap Occurrence.problem?

@[simp] theorem problemsOf_append (os os' : List Occurrence) :
    problemsOf (os ++ os') = problemsOf os ++ problemsOf os' := List.filterMap_append

theorem problemsOf_cons (o : Occurrence) (os : List Occurrence) :
    problemsOf (o :: os) = o.problem?.toList ++ problemsOf os := by
  unfold problemsOf
  rw [List.filterMap_cons]
  cases o.problem? <;> rfl

theorem problem?_eq (o : Occurrence) :
    o.problem? =
      match compileAnchored o.pattern with
      | .ok _ => none
      | .error e => some ⟨o.path, ⟨o.pattern, o.index, e⟩⟩ := by
  unfold Occurrence.problem?
  rw [compile_singleton]
  cases compileAnchored o.pattern <;> rfl

/-- There is no problem if every pattern compiles on its own. -/
theorem problemsOf_eq_nil_iff (os : List Occurrence) :
    problemsOf os = [] ↔ ∀ o ∈ os, ∃ s, PatternSet.compile [o.pattern] = .ok s := by
  unfold problemsOf
  rw [List.filterMap_eq_nil_iff]
  refine forall₂_congr fun o _ => ?_
  unfold Occurrence.problem?
  cases PatternSet.compile [o.pattern] <;> simp

namespace Policy

theorem problemsFrom_eq (path : String) : ∀ (ps : List String) (i : Nat),
    problemsFrom path i ps = problemsOf (listedFrom path i ps)
  | [], _ => rfl
  | p :: ps, i => by
      have ih := problemsFrom_eq path ps (i + 1)
      have hcons : listedFrom path i (p :: ps) =
          ⟨itemPath path i, i, p⟩ :: listedFrom path (i + 1) ps := rfl
      rw [problemsFrom, ih, hcons, problemsOf_cons, problem?_eq]
      cases compileAnchored p <;> rfl

theorem problemsFrom_eq_nil_iff (path : String) : ∀ (ps : List String) (i j : Nat),
    problemsFrom path i ps = [] ↔ ∃ es, PatternSet.compileFrom j ps = .ok es
  | [], _, _ => by simp [problemsFrom, PatternSet.compileFrom]
  | p :: ps, i, j => by
      rw [problemsFrom, PatternSet.compileFrom]
      cases compileAnchored p with
      | error e => simp
      | ok r =>
        rw [problemsFrom_eq_nil_iff path ps (i + 1) (j + 1)]
        cases PatternSet.compileFrom (j + 1) ps <;> simp

/-! ## 2. Parts of the traversal -/

/-- **What a part of the traversal does**: it adds the problems of the occurrences that it reads,
and if there are none, what it returns is good. -/
structure Collects {α : Type} (act : Compiler α) (os : List Occurrence) (Good : α → Prop) :
    Prop where
  problems : ∀ ps, (act.run ps).2 = ps ++ problemsOf os
  good : problemsOf os = [] → ∀ ps, Good (act.run ps).1

section

variable {α β : Type}

theorem Collects.pure {a : α} {Good : α → Prop} (h : Good a) :
    Collects (Pure.pure a : Compiler α) [] Good :=
  ⟨fun ps => (List.append_nil ps).symm, fun _ _ => h⟩

theorem Collects.bind {x : Compiler α} {f : α → Compiler β} {os os' : List Occurrence}
    {Good : α → Prop} {Good' : β → Prop} (hx : Collects x os Good)
    (hf : ∀ a, Collects (f a) os' fun b => Good a → Good' b) :
    Collects (x >>= f) (os ++ os') Good' := by
  refine ⟨fun ps => ?_, fun hnone ps => ?_⟩
  · show ((f (x.run ps).1).run (x.run ps).2).2 = _
    rw [(hf _).problems, hx.problems, problemsOf_append, List.append_assoc]
  · rw [problemsOf_append, List.append_eq_nil_iff] at hnone
    exact (hf _).good hnone.2 _ (hx.good hnone.1 ps)

/-- The last part of a traversal, whose value goes into the result. -/
theorem Collects.last {x : Compiler α} {f : α → β} {os : List Occurrence} {Good : α → Prop}
    {Good' : β → Prop} (hx : Collects x os Good) (h : ∀ a, Good a → Good' (f a)) :
    Collects (x >>= fun a => Pure.pure (f a)) os Good' := by
  rw [← List.append_nil os]
  exact hx.bind fun a => Collects.pure (h a)

/-- The items of a list are good, each by its own condition. -/
theorem collects_each {one : Nat → α → Compiler β} {occs : Nat → α → List Occurrence}
    {Good : α → β → Prop} (h : ∀ i a, Collects (one i a) (occs i a) (Good a)) :
    ∀ (as : List α) (i : Nat),
      Collects (compileEach one i as) (occurrencesFrom occs i as) (List.Forall₂ Good as)
  | [], _ => Collects.pure List.Forall₂.nil
  | a :: as, i => by
      refine (h i a).bind fun b => (collects_each h as (i + 1)).last fun bs hbs hb => ?_
      exact List.Forall₂.cons hb hbs

end

/-! ## 3. Sets, filters and selectors -/

theorem collects_set (path : String) (ps : List String) :
    Collects (compileSet path ps) (listed (path, ps)) (PatternSet.Holds · ps) := by
  have hproblems : problemsOf (listed (path, ps)) = problemsFrom path 0 ps :=
    (problemsFrom_eq path ps 0).symm
  have hiff := problemsFrom_eq_nil_iff path ps 0 0
  unfold compileSet
  cases hc : PatternSet.compile ps with
  | ok s =>
    have hnone : problemsFrom path 0 ps = [] := hiff.mpr ⟨s.entries, compile_eq_ok_iff.mp hc⟩
    refine ⟨fun ps' => ?_, fun _ _ => holds_of_compile hc⟩
    rw [hproblems, hnone, List.append_nil]
    rfl
  | error e =>
    refine ⟨fun ps' => ?_, fun hnone => ?_⟩
    · rw [hproblems]
      rfl
    · rw [hproblems, hiff] at hnone
      obtain ⟨es, hes⟩ := hnone
      rw [compile_eq_ok_iff (s := ⟨es⟩).mpr hes] at hc
      cases hc

theorem collects_single (path p : String) :
    Collects (compileSingle path p) [⟨path, 0, p⟩] (PatternSet.Holds · [p]) := by
  have hone : problemsOf [⟨path, 0, p⟩] = (Occurrence.problem? ⟨path, 0, p⟩).toList := by
    rw [problemsOf_cons]
    exact List.append_nil _
  have hcompile := compile_singleton p
  unfold compileSingle
  cases hp : compileAnchored p with
  | ok r =>
    simp only [hp] at hcompile
    rw [hcompile]
    refine ⟨fun ps => ?_, fun _ _ => holds_of_compile hcompile⟩
    rw [hone, problem?_eq]
    simp only [hp]
    exact (List.append_nil ps).symm
  | error e =>
    simp only [hp] at hcompile
    rw [hcompile]
    have hproblem : problemsOf [⟨path, 0, p⟩] = [⟨path, ⟨p, 0, e⟩⟩] := by
      rw [hone, problem?_eq]
      simp only [hp]
      rfl
    refine ⟨fun ps => ?_, fun hnone => ?_⟩
    · rw [hproblem]
      rfl
    · rw [hproblem] at hnone
      cases hnone

/-- A compiled filter holds the lists of a filter. -/
def FilterHolds (f : Config.Filter) (g : PatternFilter) : Prop :=
  g.includes.Holds f.includes ∧ g.excludes.Holds f.excludes

theorem collects_filter (path : String) (f : Config.Filter) :
    Collects (compileFilter path f) (occurrencesIn path f.lists) (FilterHolds f) := by
  refine (collects_set (path ++ ".include") f.includes).bind fun inc =>
    (collects_set (path ++ ".exclude") f.excludes).bind fun exc => ?_
  exact Collects.pure fun hexc hinc => ⟨hinc, hexc⟩

/-- A compiled selector holds the lists of a selector and has its other conditions. -/
structure SelectorHolds (s : Config.Selector) (t : Selector) : Prop where
  targets : t.targets = s.targets
  visibilities : t.visibilities = s.visibility
  memberKinds : t.memberKinds = s.memberKinds
  accessorKinds : t.accessorKinds = s.accessorKinds
  packages : t.packages.Holds s.packagePatterns
  fqns : t.fqns.Holds s.fqnPatterns
  simpleNames : t.simpleNames.Holds s.simpleNamePatterns
  signatures : t.signatures.Holds s.signaturePatterns
  annotations : Option.Rel FilterHolds s.annotations t.annotations

theorem collects_selector (path : String) (s : Option Config.Selector) :
    Collects (compileSelector path s) (occurrencesIn path (Config.conditionLists s))
      (Option.Rel SelectorHolds s) := by
  cases s with
  | none => exact Collects.pure Option.Rel.none
  | some s =>
    obtain ⟨targets, visibility, memberKinds, accessorKinds, packages, fqns, names, signatures,
      annotations⟩ := s
    refine (collects_set (path ++ ".package_patterns") packages).bind fun packages' =>
      (collects_set (path ++ ".fqn_patterns") fqns).bind fun fqns' =>
      (collects_set (path ++ ".simple_name_patterns") names).bind fun names' =>
      (collects_set (path ++ ".signature_patterns") signatures).bind fun signatures' => ?_
    cases annotations with
    | none =>
      exact Collects.pure fun hs hn hf hp =>
        Option.Rel.some ⟨rfl, rfl, rfl, rfl, hp, hf, hn, hs, Option.Rel.none⟩
    | some f =>
      show Collects _ (occurrencesIn path (under ".annotations" f.lists)) _
      rw [occurrencesIn_under]
      have hfilter := collects_filter (path ++ ".annotations") f
      exact (hfilter.last fun g hg => Option.Rel.some hg).last fun annotations ha hs hn hf hp =>
        Option.Rel.some ⟨rfl, rfl, rfl, rfl, hp, hf, hn, hs, ha⟩

/-! ## 4. The whole -/

/-- A compiled scope holds the filters of a scan and admits the same kinds. -/
structure ScopeHolds (s : Config.Scan) (t : Scope) : Prop where
  packages : Option.Rel FilterHolds (some s.packages) t.packages
  typeNames : Option.Rel FilterHolds (some s.types.names) t.typeNames
  typeAnnotations : Option.Rel FilterHolds (some s.types.annotations) t.typeAnnotations
  memberNames : Option.Rel FilterHolds (some s.members.names) t.memberNames
  memberAnnotations : Option.Rel FilterHolds (some s.members.annotations) t.memberAnnotations
  typeKinds : t.typeKinds = s.types.kinds
  memberKinds : t.memberKinds = s.members.kinds
  visibilities : t.visibilities = s.visibilities
  inherited : t.inherited = s.members.inherited

/-- A compiled override has the condition and the severity of an override. -/
structure OverrideHolds (o : Config.Override) (t : Override) : Prop where
  condition : Option.Rel SelectorHolds o.condition t.condition
  severity : t.severity = o.severity

/-- A compiled policy holds the pattern of a policy and has its effect. -/
structure PolicyHolds (p : Config.Policy) (t : AnnotationPolicy) : Prop where
  pattern : t.pattern.Holds [p.annotationPattern]
  targets : t.targets = p.targets
  effect : t.effect = p.effect
  rules : t.rules = p.rules
  toSeverity : t.toSeverity = p.toSeverity
  shift : t.shift = p.shift.getD 0

/-- A compiled rule entry has the condition and the values of a rule entry. -/
structure RuleHolds (r : Config.RuleEntry) (t : RuleEntry) : Prop where
  id : t.id = r.id
  enabled : t.enabled = r.isEnabled
  severity : t.severity = r.severity
  condition : Option.Rel SelectorHolds r.condition t.condition
  options : t.options = r.options

/-- **A compiled configuration holds what the configuration says**: every list of patterns has
become a set of the same patterns, a selector is absent where it was, and all else is the same. -/
structure Faithful (c : Config) (t : Compiled) : Prop where
  projectRoot : t.projectRoot = c.projectRoot
  scan : ScopeHolds c.scan t.scan
  byVisibility : t.byVisibility = c.defaults.severity.byVisibility
  overrides : List.Forall₂ OverrideHolds c.defaults.severity.overrides t.overrides
  policies : List.Forall₂ PolicyHolds c.defaults.policies t.policies
  rules : List.Forall₂ RuleHolds c.rules t.rules
  failOn : t.failOn = c.failOn

theorem collects_scan (s : Config.Scan) :
    Collects (compileScan s) (occurrencesIn "scan" s.lists) (ScopeHolds s) := by
  have hlists : occurrencesIn "scan" s.lists =
      occurrencesIn "scan.packages" s.packages.lists ++
        (occurrencesIn "scan.types.names" s.types.names.lists ++
          (occurrencesIn "scan.types.annotations" s.types.annotations.lists ++
            (occurrencesIn "scan.members.names" s.members.names.lists ++
              occurrencesIn "scan.members.annotations" s.members.annotations.lists))) := by
    simp only [Config.Scan.lists, occurrencesIn_append, occurrencesIn_under, List.append_assoc]
    rfl
  rw [hlists]
  refine (collects_filter _ s.packages).bind fun packages =>
    (collects_filter _ s.types.names).bind fun typeNames =>
    (collects_filter _ s.types.annotations).bind fun typeAnnotations =>
    (collects_filter _ s.members.names).bind fun memberNames =>
    (collects_filter _ s.members.annotations).last fun memberAnnotations hma hmn hta htn hp => ?_
  exact ⟨.some hp, .some htn, .some hta, .some hmn, .some hma, rfl, rfl, rfl, rfl⟩

theorem collects_override (i : Nat) (o : Config.Override) :
    Collects (compileOverride i o) (o.occurrences i) (OverrideHolds o) := by
  have hpath : "defaults.severity.overrides[" ++ toString i ++ "].match" =
      itemPath "defaults.severity.overrides" i ++ ".match" := by
    rw [itemPath_append]
    rfl
  unfold compileOverride
  rw [hpath]
  exact (collects_selector _ o.condition).last fun condition h => ⟨h, rfl⟩

theorem collects_policy (i : Nat) (p : Config.Policy) :
    Collects (compilePolicy i p) (p.occurrences i) (PolicyHolds p) := by
  have hpath : "defaults.annotation_policies[" ++ toString i ++ "].annotation_pattern" =
      itemPath "defaults.annotation_policies" i ++ ".annotation_pattern" := by
    rw [itemPath_append]
    rfl
  unfold compilePolicy
  rw [hpath]
  exact (collects_single _ p.annotationPattern).last fun pattern h => ⟨h, rfl, rfl, rfl, rfl, rfl⟩

theorem collects_rule (i : Nat) (r : Config.RuleEntry) :
    Collects (compileRule i r) (r.occurrences i) (RuleHolds r) := by
  have hpath : "rules[" ++ toString i ++ "].when" = itemPath "rules" i ++ ".when" := by
    rw [itemPath_append]
    rfl
  unfold compileRule
  rw [hpath]
  exact (collects_selector _ r.condition).last fun condition h => ⟨rfl, rfl, rfl, h, rfl⟩

theorem collects_all (c : Config) : Collects (compileAll c) c.occurrences (Faithful c) := by
  have hsections : c.occurrences =
      occurrencesIn "scan" c.scan.lists ++
        (occurrencesFrom Config.Override.occurrences 0 c.defaults.severity.overrides ++
          (occurrencesFrom Config.Policy.occurrences 0 c.defaults.policies ++
            occurrencesFrom Config.RuleEntry.occurrences 0 c.rules)) := by
    simp only [Config.occurrences, Config.sections, List.flatMap_cons, List.flatMap_nil,
      List.append_nil]
  rw [hsections]
  refine (collects_scan c.scan).bind fun scan =>
    (collects_each collects_override c.defaults.severity.overrides 0).bind fun overrides =>
    (collects_each collects_policy c.defaults.policies 0).bind fun policies =>
    (collects_each collects_rule c.rules 0).last fun rules hr hp ho hs => ?_
  exact ⟨rfl, hs, rfl, ho, hp, hr, rfl⟩

/-! ## 5. Results -/

/-- What a problem says about an occurrence: its path, its text and place, and the fault that
compiling it on its own shows. -/
def Reports (o : Occurrence) (p : Problem) : Prop :=
  p.path = o.path ∧ p.pattern = o.pattern ∧
    ∃ e, PatternSet.compile [o.pattern] = .error e ∧
      p.cause = .pattern o.pattern o.index (.plain e.cause.message)

theorem compileChecked_eq (c : Config) :
    compileChecked (some c) =
      if problemsOf c.occurrences = [] then .ok ((compileAll c).run []).1
      else .error (.uncompiled ((problemsOf c.occurrences).map PatternProblem.toProblem)) := by
  have hrun := (collects_all c).problems []
  rw [List.nil_append] at hrun
  rw [← hrun]
  unfold compileChecked compile
  dsimp only
  rcases (compileAll c).run [] with ⟨t, _ | ⟨p, ps⟩⟩ <;> rfl

theorem reports_problemsOf : ∀ os : List Occurrence,
    List.Forall₂ Reports (os.filter fun o => !(PatternSet.compile [o.pattern]).isOk)
      ((problemsOf os).map PatternProblem.toProblem)
  | [] => List.Forall₂.nil
  | o :: os => by
      have ih := reports_problemsOf os
      rw [problemsOf_cons, Occurrence.problem?]
      cases ho : PatternSet.compile [o.pattern] with
      | ok s =>
        rw [List.filter_cons_of_neg (by simp [ho, Except.isOk, Except.toBool])]
        exact ih
      | error e =>
        rw [List.filter_cons_of_pos (by simp [ho, Except.isOk, Except.toBool])]
        exact List.Forall₂.cons ⟨rfl, rfl, e, ho, rfl⟩ ih

theorem paths_problemsOf_sublist : ∀ os : List Occurrence,
    (((problemsOf os).map PatternProblem.toProblem).map Problem.path).Sublist (os.map (·.path))
  | [] => List.Sublist.refl _
  | o :: os => by
      have ih := paths_problemsOf_sublist os
      rw [problemsOf_cons, Occurrence.problem?]
      cases PatternSet.compile [o.pattern] with
      | ok s => exact ih.cons _
      | error e => exact ih.cons_cons _

/-- **Compiling is exact about patterns.**  It succeeds if and only if every pattern of the
configuration compiles on its own; then every compiled set holds its list.  Otherwise there is one
problem for each faulty pattern, in the order in which patterns are read, and no two problems have
the same path. -/
theorem compileChecked_exact (c : Config) :
    ((∃ t, compileChecked (some c) = .ok t) ↔
        ∀ o ∈ c.occurrences, ∃ s, PatternSet.compile [o.pattern] = .ok s) ∧
      (∀ t, compileChecked (some c) = .ok t → Faithful c t) ∧
      (∀ e, compileChecked (some c) = .error e →
        ∃ ps, e = .uncompiled ps ∧
          List.Forall₂ Reports
            (c.occurrences.filter fun o => !(PatternSet.compile [o.pattern]).isOk) ps ∧
          (ps.map Problem.path).Nodup) := by
  rw [← problemsOf_eq_nil_iff, compileChecked_eq]
  by_cases hnone : problemsOf c.occurrences = []
  · simp only [hnone, if_true]
    refine ⟨⟨fun _ => trivial, fun _ => ⟨_, rfl⟩⟩, fun t ht => ?_, fun e he => ?_⟩
    · cases ht
      exact (collects_all c).good hnone []
    · cases he
  · simp only [hnone, if_false]
    refine ⟨⟨fun ⟨t, ht⟩ => ?_, fun h => h.elim⟩, fun t ht => ?_, fun e he => ?_⟩
    · cases ht
    · cases ht
    · cases he
      refine ⟨_, rfl, reports_problemsOf c.occurrences, ?_⟩
      exact (Config.distinctPaths_occurrences c).sublist (paths_problemsOf_sublist c.occurrences)

end Policy

end DocAudit
