import DocAudit.Audit.Run
import DocAudit.Proofs.StableSort
import DocAudit.Proofs.Text.ByteOrder
import Mathlib

/-!
# The result of a run

What a run returns, said without its steps.

* `run_eq_ok_iff`: a run has a result if the rule of every enabled entry is known and accepts its
  options, and the result is then that of all entries;
* `issueBefore_iff`: issues are compared by the bytes of their files, then of their names;
* `sum_bySeverity`: every issue is counted under one severity;
* `run_sorts_and_balances`: the issues are the stable sort of the reported findings, and the counts
  add up.
-/

namespace DocAudit.Audit

open DocAudit.Policy DocAudit.Text

/-! ## 1. When a run has a result -/

section Steps

variable {outcome : RuleEntry → Outcome} {registered : List String}

theorem ofEvaluation_eq_found_iff {e : Evaluation} {fs : List Finding} :
    Outcome.ofEvaluation e = .found fs ↔ e.result = .ok fs := by
  unfold Outcome.ofEvaluation Evaluation.result
  cases e.error? <;> simp

theorem outcomeOf_eq_found_iff {g : Rule.Registry} {v : Inventory} {cancelled : Bool}
    {e : RuleEntry} {fs : List Finding} :
    outcomeOf g v cancelled e = .found fs ↔
      cancelled = false ∧ ∃ rule, g.lookup e.id = some rule ∧
        rule.evaluate v e.options false = .ok fs := by
  unfold outcomeOf
  cases cancelled with
  | true => simp
  | false =>
    cases hl : g.lookup e.id with
    | none => simp
    | some rule => simp [ofEvaluation_eq_found_iff, Rule.evaluate]

/-- A step without an error ended with findings, and so did all before it. -/
theorem found_of_no_error : ∀ {es : List RuleEntry},
    (stepsOf outcome es).findSome? (·.error? registered) = none →
      ∀ e ∈ es, ∃ fs, outcome e = .found fs
  | [], _, _, he => absurd he List.not_mem_nil
  | e :: es, h, e', he => by
      cases ho : outcome e with
      | found fs =>
        simp only [stepsOf, ho, List.findSome?_cons, Step.error?] at h
        rcases List.mem_cons.mp he with rfl | he
        · exact ⟨fs, ho⟩
        · exact found_of_no_error h e' he
      | cancelled => simp [stepsOf, ho, Step.error?] at h
      | unknown => simp [stepsOf, ho, Step.error?] at h
      | failed x made => simp [stepsOf, ho, Step.error?] at h

theorem stepsOf_eq_map : ∀ {es : List RuleEntry}, (∀ e ∈ es, ∃ fs, outcome e = .found fs) →
    stepsOf outcome es = es.map fun e => ⟨e, outcome e⟩
  | [], _ => rfl
  | e :: es, h => by
      obtain ⟨fs, ho⟩ := h e List.mem_cons_self
      have ih := stepsOf_eq_map fun e' he => h e' (List.mem_cons_of_mem _ he)
      simp only [stepsOf, ho, List.map_cons, ih]

theorem no_error_of_found {es : List RuleEntry} (h : ∀ e ∈ es, ∃ fs, outcome e = .found fs) :
    (stepsOf outcome es).findSome? (·.error? registered) = none := by
  rw [stepsOf_eq_map h, List.findSome?_eq_none_iff]
  intro s hs
  obtain ⟨e, he, rfl⟩ := List.mem_map.mp hs
  obtain ⟨fs, ho⟩ := h e he
  simp [Step.error?, ho]

/-- The error of the steps is that of the first entry that has one. -/
theorem findSome?_stepsOf : ∀ es : List RuleEntry,
    (stepsOf outcome es).findSome? (·.error? registered) =
      es.findSome? fun e => (Step.mk e (outcome e)).error? registered
  | [] => rfl
  | e :: es => by
      have ih := findSome?_stepsOf es
      cases ho : outcome e with
      | found fs =>
        simp only [stepsOf, ho, List.findSome?_cons]
        exact ih
      | cancelled => simp [stepsOf, ho, Step.error?]
      | unknown => simp [stepsOf, ho, Step.error?]
      | failed x made => simp [stepsOf, ho, Step.error?]

end Steps

variable {c : Compiled} {g : Rule.Registry} {v : Inventory} {runId : String} {t : Timing}
  {cancelled : Bool} {r : Result}

/-- **A run has a result if every enabled entry has findings**, and then it is theirs. -/
theorem run_eq_ok_iff : (run c g v runId t cancelled).1 = .ok r ↔
    (∀ e ∈ c.enabledRules, ∃ fs, outcomeOf g v cancelled e = .found fs) ∧
      r = resultOf c v runId
        (c.enabledRules.map fun e => ⟨e, outcomeOf g v cancelled e⟩) := by
  have hrun : (run c g v runId t cancelled).1 =
      (conclude c g.ids v runId (stepsOf (outcomeOf g v cancelled) c.enabledRules)).mapError
        (Error.context "audit run failed") := rfl
  rw [hrun]
  constructor
  · intro h
    unfold conclude at h
    split at h
    · cases h
    · rename_i hnone
      have hfound := found_of_no_error hnone
      cases h
      rw [stepsOf_eq_map hfound]
      exact ⟨hfound, rfl⟩
  · rintro ⟨hfound, rfl⟩
    unfold conclude
    rw [no_error_of_found hfound, stepsOf_eq_map hfound]
    rfl

/-- **A run fails with the error of its first entry that has one.** -/
theorem run_eq_error_iff {x : Error} : (run c g v runId t cancelled).1 = .error x ↔
    ∃ y, (c.enabledRules.findSome? fun e =>
        (Step.mk e (outcomeOf g v cancelled e)).error? g.ids) = some y ∧
      x = .context "audit run failed" y := by
  have hrun : (run c g v runId t cancelled).1 =
      (conclude c g.ids v runId (stepsOf (outcomeOf g v cancelled) c.enabledRules)).mapError
        (Error.context "audit run failed") := rfl
  rw [hrun, conclude, findSome?_stepsOf]
  split
  · rename_i y hy
    rw [hy]
    simp [Except.mapError, eq_comm]
  · rename_i hnone
    rw [hnone]
    simp [Except.mapError]

/-! ## 2. What the steps of a run add up to -/

/-- The findings of an entry's rule, in the order in which the rule makes them. -/
def findingsBy (g : Rule.Registry) (v : Inventory) (e : RuleEntry) : List Finding :=
  match g.lookup e.id with
  | some rule => (rule.evaluate v e.options false).toOption.getD []
  | none => []

/-- The reported ones among an entry's findings, each as an issue. -/
def reportedBy (c : Compiled) (e : RuleEntry) (fs : List Finding) : List Issue :=
  fs.filterMap fun f =>
    match c.resolve e f.element with
    | .reported s => some ⟨s, e.id, f.message, f.element⟩
    | _ => none

theorem findingsBy_eq {e : RuleEntry} {rule : Rule} {fs : List Finding}
    (hl : g.lookup e.id = some rule) (he : rule.evaluate v e.options false = .ok fs) :
    findingsBy g v e = fs := by
  simp [findingsBy, hl, he, Except.toOption]

/-- The step of an entry has the findings of its rule. -/
theorem step_findings {e : RuleEntry} (h : ∃ fs, outcomeOf g v cancelled e = .found fs) :
    (Step.mk e (outcomeOf g v cancelled e)).findings = findingsBy g v e := by
  obtain ⟨fs, ho⟩ := h
  obtain ⟨-, rule, hl, he⟩ := outcomeOf_eq_found_iff.mp ho
  rw [findingsBy_eq hl he]
  simp [Step.findings, ho]

theorem issue?_eq (e : RuleEntry) (f : Finding) :
    issue? c e f = match c.resolve e f.element with
      | .reported s => some ⟨s, e.id, f.message, f.element⟩
      | _ => none := by
  unfold issue?
  cases c.resolve e f.element <;> rfl

theorem step_issues (s : Step) : s.issues c = reportedBy c s.entry s.findings := by
  unfold Step.issues reportedBy
  congr 1
  funext f
  exact issue?_eq s.entry f

/-- A step loses no finding: each is an issue or counted as suppressed. -/
theorem step_balance (c : Compiled) (s : Step) :
    s.suppressed c + (s.issues c).length = s.findings.length := by
  have : (s.issues c).length ≤ s.findings.length := List.length_filterMap_le _ _
  unfold Step.suppressed
  omega

theorem steps_balance (c : Compiled) (steps : List Step) :
    (steps.foldr (fun s (n : Int) => s.findings.length + n) 0) =
      steps.foldr (fun s (n : Int) => s.suppressed c + n) 0 +
        (steps.flatMap (·.issues c)).length := by
  induction steps with
  | nil => rfl
  | cons s steps ih =>
    have := step_balance c s
    simp only [List.foldr_cons, ih, List.flatMap_cons, List.length_append]
    omega

theorem steps_findings (steps : List Step) :
    (steps.foldr (fun s (n : Int) => s.findings.length + n) 0) =
      (steps.flatMap (·.findings)).length := by
  induction steps with
  | nil => rfl
  | cons s steps ih =>
    simp only [List.foldr_cons, ih, List.flatMap_cons, List.length_append]
    omega

/-! ## 3. The order of issues -/

/-- Whether an issue stands before another or ties with it, read off the bytes of their files and of
their display names. -/
def byteBefore (a b : Issue) : Bool :=
  decide (utf8 a.element.sourceFile < utf8 b.element.sourceFile) ||
    (utf8 a.element.sourceFile == utf8 b.element.sourceFile &&
      decide (utf8 a.element.displayName ≤ utf8 b.element.displayName))

theorem issueBefore_eq (a b : Issue) : issueBefore a b = byteBefore a b := by
  unfold issueBefore byteBefore
  rw [Bool.eq_iff_iff]
  simp only [Bool.or_eq_true, Bool.and_eq_true, decide_eq_true_eq, beq_iff_eq, utf8_lt_iff,
    utf8_le_iff, utf8_inj]
  split
  · rename_i h
    simp [h]
  · rename_i h
    simp [h, lt_iff_le_and_ne]

/-- The place of an issue: its file, then its display name. -/
def sortKey (i : Issue) : String ×ₗ String := toLex (i.element.sourceFile, i.element.displayName)

theorem issueBefore_iff (a b : Issue) : issueBefore a b = true ↔ sortKey a ≤ sortKey b := by
  unfold issueBefore sortKey
  rw [Prod.Lex.toLex_le_toLex]
  split
  · rename_i h
    simp_all
  · rename_i h
    simp_all [lt_iff_le_and_ne]

theorem issueBefore_isOrder : IsOrder issueBefore where
  trans a b d := by
    simp only [issueBefore_iff]
    exact le_trans
  total a b := by
    simp only [Bool.or_eq_true, issueBefore_iff]
    exact le_total _ _

theorem sortIssues_iff {is out : List Issue} :
    StableSort byteBefore is out ↔ out = sortIssues is := by
  have h : issueBefore = byteBefore := funext fun a => funext fun b => issueBefore_eq a b
  rw [← h]
  exact StableSort.iff_eq_mergeSort issueBefore_isOrder

/-- Issues in different places are sorted once each stands before the next. -/
theorem sortIssues_of_strict {is out : List Issue} (hperm : out.Perm is)
    (hstrict : out.Pairwise fun a b => issueBefore a b = true ∧ issueBefore b a = false) :
    sortIssues is = out := by
  refine StableSort.mergeSort_eq_of_apart issueBefore_isOrder hperm (hstrict.imp And.left) ?_
  exact hstrict.imp fun h => by rw [ties, h.2, Bool.and_false]

/-! ## 4. The issues by severity -/

/-- The issues of a severity and those of the others are all of them. -/
theorem countOf_add_others (issues : List Issue) (s : Severity) (ss : List Severity) :
    countOf issues s +
        (issues.filter fun i => (ss.filter fun b => !b == s).contains i.severity).length =
      (issues.filter fun i => (s :: ss).contains i.severity).length := by
  have hfirst : (issues.filter fun i => i.severity == s && (s :: ss).contains i.severity) =
      issues.filter fun i => i.severity == s := by
    refine List.filter_congr fun i _ => ?_
    by_cases hs : i.severity = s <;> simp [hs]
  have hothers : (issues.filter fun i => !(i.severity == s) && (s :: ss).contains i.severity) =
      issues.filter fun i => (ss.filter fun b => !b == s).contains i.severity := by
    refine List.filter_congr fun i _ => ?_
    by_cases hs : i.severity = s <;> simp [hs]
  have hsplit := List.length_eq_length_filter_add
    (l := issues.filter fun i => (s :: ss).contains i.severity) fun i => i.severity == s
  rw [List.filter_filter, List.filter_filter, hfirst, hothers] at hsplit
  exact hsplit.symm

/-- The counts under some severities, each taken once, count the issues of these severities. -/
theorem sum_counts (issues : List Issue) : ∀ ss : List Severity,
    (ss.eraseDups.map (countOf issues)).sum =
      (issues.filter fun i => ss.contains i.severity).length
  | [] => by simp
  | s :: ss => by
      have ih := sum_counts issues (ss.filter fun b => !b == s)
      rw [List.eraseDups_cons, List.map_cons, List.sum_cons, ih, countOf_add_others]
termination_by ss => ss.length
decreasing_by exact Nat.lt_succ_of_le (List.length_filter_le _ _)

/-- **Every issue is counted under one severity.** -/
theorem sum_bySeverity (issues : List Issue) :
    ((bySeverity issues).map (·.2)).sum = issues.length := by
  have hall : (issues.filter fun i =>
      (Severity.scale ++ issues.map (·.severity)).contains i.severity) = issues := by
    rw [List.filter_eq_self]
    intro i hi
    simp only [List.contains_iff_mem, List.mem_append]
    exact Or.inr (List.mem_map_of_mem hi)
  have h := sum_counts issues (Severity.scale ++ issues.map (·.severity))
  rw [hall] at h
  rw [← h]
  simp [bySeverity, Function.comp_def]

/-! ## 5. The whole result -/

theorem flatMap_issues (h : ∀ e ∈ c.enabledRules, ∃ fs, outcomeOf g v cancelled e = .found fs) :
    (c.enabledRules.map fun e => Step.mk e (outcomeOf g v cancelled e)).flatMap (·.issues c) =
      c.enabledRules.flatMap fun e => reportedBy c e (findingsBy g v e) := by
  rw [List.flatMap_map]
  refine List.flatMap_congr fun e he => ?_
  rw [step_issues, step_findings (h e he)]

theorem flatMap_findings (h : ∀ e ∈ c.enabledRules, ∃ fs, outcomeOf g v cancelled e = .found fs) :
    (c.enabledRules.map fun e => Step.mk e (outcomeOf g v cancelled e)).flatMap (·.findings) =
      c.enabledRules.flatMap (findingsBy g v) := by
  rw [List.flatMap_map]
  exact List.flatMap_congr fun e he => step_findings (h e he)

/-- The issues of a run are what the enabled entries report, sorted. -/
theorem issues_of_run (h : (run c g v runId t cancelled).1 = .ok r) :
    r.issues =
      sortIssues (c.enabledRules.flatMap fun e => reportedBy c e (findingsBy g v e)) := by
  obtain ⟨hfound, rfl⟩ := run_eq_ok_iff.mp h
  rw [← flatMap_issues hfound]
  rfl

/-- The counts of a run: what is not reported of the findings is suppressed. -/
theorem stats_of_run (h : (run c g v runId t cancelled).1 = .ok r) :
    r.stats.elements = v.size ∧
      r.stats.findings = (c.enabledRules.flatMap (findingsBy g v)).length ∧
      r.stats.findings = r.stats.suppressed + r.issues.length := by
  obtain ⟨hfound, rfl⟩ := run_eq_ok_iff.mp h
  refine ⟨rfl, ?_, ?_⟩
  · rw [← flatMap_findings hfound]
    exact steps_findings _
  · have hlen : ∀ is : List Issue, (sortIssues is).length = is.length :=
      fun is => List.length_mergeSort is
    show _ = _ + ((sortIssues _).length : Int)
    rw [hlen]
    exact steps_balance c _

/-- **The result of a run**: its issues are the stable sort of what the enabled entries report, in
their order and in that of their findings, and its counts balance. -/
theorem run_sorts_and_balances (h : (run c g v runId t cancelled).1 = .ok r) :
    (∀ e ∈ c.enabledRules, ∃ rule, g.lookup e.id = some rule ∧
      rule.evaluate v e.options false = .ok (findingsBy g v e)) ∧
    (∀ out, StableSort byteBefore
        (c.enabledRules.flatMap fun e => reportedBy c e (findingsBy g v e)) out ↔
      out = r.issues) ∧
    r.stats.elements = v.size ∧
    r.stats.findings = (c.enabledRules.flatMap (findingsBy g v)).length ∧
    r.stats.findings = r.stats.suppressed + r.issues.length ∧
    ((bySeverity r.issues).map (·.2)).sum = r.issues.length := by
  have hissues := issues_of_run h
  obtain ⟨hfound, rfl⟩ := run_eq_ok_iff.mp h
  refine ⟨fun e he => ?_, fun out => ?_, rfl, ?_, ?_, sum_bySeverity _⟩
  · obtain ⟨fs, ho⟩ := hfound e he
    obtain ⟨-, rule, hl, hev⟩ := outcomeOf_eq_found_iff.mp ho
    exact ⟨rule, hl, by rw [findingsBy_eq hl hev, hev]⟩
  · rw [sortIssues_iff, hissues]
  · rw [← flatMap_findings hfound]
    exact steps_findings _
  · have hlen : ∀ is : List Issue, (sortIssues is).length = is.length :=
      fun is => List.length_mergeSort is
    show _ = _ + ((sortIssues _).length : Int)
    rw [hlen]
    exact steps_balance c _

/-- A configuration under which undocumented public elements are errors. -/
def presenceOnly : Compiled where
  projectRoot := "."
  scan := ⟨none, none, none, none, none, .none, .none, [.pub], false⟩
  byVisibility := [(.pub, .error)]
  overrides := []
  policies := []
  rules := [⟨"doc-presence", true, ⟨""⟩, none, none⟩]
  failOn := .error

/-- An undocumented function `name` of a file. -/
def bareFunction (file name : String) (visibility : Visibility) : Element :=
  ⟨.function, "m." ++ name, "m." ++ name, name, file, 1, visibility, [.function], [], "m", "", []⟩

/-- Three functions without doc comments, of which one is not public. -/
def bareFunctions : Inventory :=
  ⟨[bareFunction "b.go" "B" .pub, bareFunction "a.go" "c" .pkg, bareFunction "a.go" "A" .pub], []⟩

theorem run_sorts_and_balances_bare : ∃ r,
    (run presenceOnly .builtin bareFunctions "" .none false).1 = .ok r ∧
      (∀ out, StableSort byteBefore
          [⟨.error, "doc-presence", "Missing doc comment: m.B", bareFunction "b.go" "B" .pub⟩,
            ⟨.error, "doc-presence", "Missing doc comment: m.A", bareFunction "a.go" "A" .pub⟩] out ↔
        out = r.issues) ∧
      r.stats = ⟨3, 3, 1⟩ := by
  have h : (run presenceOnly .builtin bareFunctions "" .none false).1 =
      .ok (resultOf presenceOnly bareFunctions ""
        (stepsOf (outcomeOf .builtin bareFunctions false) presenceOnly.enabledRules)) := rfl
  exact ⟨_, h, (run_sorts_and_balances h).2.1, rfl⟩

end DocAudit.Audit
