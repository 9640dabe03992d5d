import DocAudit.Proofs.Audit.Result

/-!
# Metrics over many runs

Runs that share a collector add to the same counters.  The counters are taken to add exactly.

* `total_append` and `total_flatMap`: what is counted over many events is counted piece by piece;
* `issuesOverSeverities_eq_length`: the issues of a rule over all severities are counted one by one;
* `findingsTotal_step` and `suppressedTotal_step`: what each step adds to the counters of its rule;
* `runsTotal_eventsOf`: a run counts once, under the way in which it ended;
* `Call.balance` and `Call.balance_le`: what one run adds, whether it has a result or is aborted;
* `counters_balance`: what holds after any sequence of runs.  `run_eq_runUntil` says that the runs
  that are called off at their start or not at all are among them.
-/

namespace DocAudit.Metrics

variable {label? : Event → Option Labels} {amount : Event → Nat} {ls : Labels}

/-! ## 1. Counters -/

theorem total_eq_sum (es : List Event) :
    total label? amount es ls = ((es.filter fun e => label? e == some ls).map amount).sum := by
  rw [List.sum_eq_foldr, List.foldr_map]
  rfl

theorem total_append (es fs : List Event) :
    total label? amount (es ++ fs) ls = total label? amount es ls + total label? amount fs ls := by
  simp only [total_eq_sum, List.filter_append, List.map_append, List.sum_append]

/-- What is counted over many lists of events is counted list by list. -/
theorem total_flatMap {α : Type} (f : α → List Event) (xs : List α) :
    total label? amount (xs.flatMap f) ls = (xs.map fun x => total label? amount (f x) ls).sum := by
  induction xs with
  | nil => rfl
  | cons x xs ih => rw [List.flatMap_cons, total_append, ih, List.map_cons, List.sum_cons]

/-- Events under other labels are not counted. -/
theorem total_eq_zero {es : List Event} (h : ∀ e ∈ es, label? e ≠ some ls) :
    total label? amount es ls = 0 := by
  have hnone : (es.filter fun e => label? e == some ls) = [] := by
    rw [List.filter_eq_nil_iff]
    intro e he
    simpa using h e he
  rw [total_eq_sum, hnone]
  rfl

/-- Counted one by one, events are as many as there are. -/
theorem total_one (es : List Event) :
    total label? one es ls = es.countP fun e => label? e == some ls := by
  rw [total_eq_sum, List.countP_eq_length_filter]
  show (List.map (fun _ => 1) _).sum = _
  simp

/-! ## 2. What the counters of a collector say -/

/-- The number of runs that ended in a way. -/
def runsTotal (es : List Event) (s : RunStatus) : Nat :=
  total runLabels? one es [("status", s.word)]

/-- The number of findings of a rule. -/
def findingsTotal (es : List Event) (id : String) : Nat :=
  total ruleLabels? findingCount es [("rule_id", id)]

/-- The number of findings of a rule that were not reported. -/
def suppressedTotal (es : List Event) (id : String) : Nat :=
  total suppressedLabels? suppressedCount es [("rule_id", id)]

/-- The number of issues of a rule and a severity. -/
def issuesTotal (es : List Event) (id severity : String) : Nat :=
  total issueLabels? one es [("rule_id", id), ("severity", severity)]

theorem runsTotal_append (es fs : List Event) (s : RunStatus) :
    runsTotal (es ++ fs) s = runsTotal es s + runsTotal fs s := total_append es fs

theorem findingsTotal_append (es fs : List Event) (id : String) :
    findingsTotal (es ++ fs) id = findingsTotal es id + findingsTotal fs id := total_append es fs

theorem suppressedTotal_append (es fs : List Event) (id : String) :
    suppressedTotal (es ++ fs) id = suppressedTotal es id + suppressedTotal fs id :=
  total_append es fs

/-- The severity of an issue of a rule. -/
def issueSeverity? (id : String) : Event → Option String
  | .issue rule severity => if rule = id then some severity else none
  | _ => none

/-- The severities of the issues of a rule, one for each issue. -/
def issueSeverities (es : List Event) (id : String) : List String :=
  es.filterMap (issueSeverity? id)

/-- The number of issues of a rule, summed over the severities that it has issues of. -/
def issuesOverSeverities (es : List Event) (id : String) : Nat :=
  ((issueSeverities es id).dedup.map (issuesTotal es id)).sum

theorem issuesTotal_eq_count (es : List Event) (id severity : String) :
    issuesTotal es id severity = (issueSeverities es id).count severity := by
  rw [issuesTotal, total_one, issueSeverities, List.count_filterMap]
  refine List.countP_congr fun e _ => ?_
  cases e with
  | issue rule s => by_cases hrule : rule = id <;> simp [issueLabels?, issueSeverity?, hrule]
  | run status duration elements => simp [issueLabels?, issueSeverity?]
  | evaluation rule failed duration findings => simp [issueLabels?, issueSeverity?]
  | suppressed rule count => simp [issueLabels?, issueSeverity?]

/-- **The issues of a rule over all severities are counted one by one.** -/
theorem issuesOverSeverities_eq_length (es : List Event) (id : String) :
    issuesOverSeverities es id = (issueSeverities es id).length := by
  have hcount : issuesTotal es id = fun severity => (issueSeverities es id).count severity :=
    funext (issuesTotal_eq_count es id)
  rw [issuesOverSeverities, hcount]
  exact List.sum_map_count_dedup_eq_length _

theorem issuesOverSeverities_append (es fs : List Event) (id : String) :
    issuesOverSeverities (es ++ fs) id =
      issuesOverSeverities es id + issuesOverSeverities fs id := by
  simp only [issuesOverSeverities_eq_length, issueSeverities, List.filterMap_append,
    List.length_append]

end DocAudit.Metrics

namespace DocAudit.Audit

open DocAudit.Policy DocAudit.Metrics

variable {c : Compiled} {v : Inventory} {t : Timing} {runId id : String}

section Run

variable {registered : List String} {steps : List Step} {out : Except Error Result}

/-! ## 3. What a step adds -/

/-- The findings that the rule of a step has handed back, whether it failed or not. -/
def Step.handed (s : Step) : List Finding :=
  match s.outcome with
  | .found fs => fs
  | .failed _ fs => fs
  | _ => []

theorem findingsTotal_step (s : Step) :
    findingsTotal (s.events c t) id = if s.entry.id = id then s.handed.length else 0 := by
  unfold findingsTotal Step.events Step.handed
  rw [total_eq_sum]
  cases s.outcome with
  | found fs =>
    by_cases hid : s.entry.id = id <;> by_cases hs : s.suppressed c = 0 <;>
      simp [ruleLabels?, findingCount, hid, hs]
  | failed e made => by_cases hid : s.entry.id = id <;> simp [ruleLabels?, findingCount, hid]
  | cancelled => simp
  | unknown => simp

/-- No step hands back less than its findings. -/
theorem length_findings_le (s : Step) : s.findings.length ≤ s.handed.length := by
  unfold Step.findings Step.handed
  cases s.outcome <;> simp

/-- A step that did not fail hands back its findings. -/
theorem handed_of_no_error {s : Step} (h : s.error? registered = none) : s.handed = s.findings := by
  unfold Step.error? at h
  unfold Step.handed Step.findings
  cases ho : s.outcome with
  | failed e made => simp [ho] at h
  | _ => rfl

theorem suppressedTotal_step (s : Step) :
    suppressedTotal (s.events c t) id = if s.entry.id = id then s.suppressed c else 0 := by
  unfold suppressedTotal Step.events
  rw [total_eq_sum]
  cases ho : s.outcome with
  | found fs =>
    by_cases hid : s.entry.id = id <;> by_cases hs : s.suppressed c = 0 <;>
      simp [suppressedLabels?, suppressedCount, hid, hs]
  | failed e made => simp [suppressedLabels?, Step.suppressed, Step.findings, ho]
  | cancelled => simp [Step.suppressed, Step.findings, ho]
  | unknown => simp [Step.suppressed, Step.findings, ho]

/-- A step tells of the evaluation of its rule and of suppressed findings only. -/
theorem mem_events_cases {e : Event} {s : Step} (he : e ∈ s.events c t) :
    (∃ rule failed duration n, e = .evaluation rule failed duration n) ∨
      ∃ rule n, e = .suppressed rule n := by
  unfold Step.events at he
  split at he
  · rcases List.mem_cons.mp he with rfl | he
    · exact .inl ⟨_, _, _, _, rfl⟩
    · obtain rfl := List.mem_singleton.mp (List.mem_ite_nil_left.mp he).2
      exact .inr ⟨_, _, rfl⟩
  · obtain rfl := List.mem_singleton.mp he
    exact .inl ⟨_, _, _, _, rfl⟩
  · cases he

/-- So steps add nothing to the counters of issues and of runs. -/
theorem labels_of_mem_steps {e : Event} (he : e ∈ steps.flatMap (·.events c t)) :
    (∀ id, issueSeverity? id e = none) ∧ runLabels? e = none := by
  obtain ⟨s, -, he⟩ := List.mem_flatMap.mp he
  rcases mem_events_cases he with ⟨_, _, _, _, rfl⟩ | ⟨_, _, rfl⟩
  · exact ⟨fun _ => rfl, rfl⟩
  · exact ⟨fun _ => rfl, rfl⟩

/-! ## 4. What a run adds -/

/-- The sum of an amount over the steps of a rule. -/
def sumOver (id : String) (amount : Step → Nat) (steps : List Step) : Nat :=
  (steps.map fun s => if s.entry.id = id then amount s else 0).sum

/-- The events of a run's issues. -/
def issueEvents : Except Error Result → List Event
  | .error _ => []
  | .ok r => r.issues.map fun i => .issue i.ruleId i.severity.text

theorem eventsOf_eq : eventsOf c v t steps out =
    steps.flatMap (·.events c t) ++ issueEvents out ++
      [.run (statusOf c out).word t.run v.size] := by
  cases out <;> rfl

theorem mem_issueEvents {e : Event} (he : e ∈ issueEvents out) :
    ∃ rule severity, e = .issue rule severity := by
  cases out with
  | error x => cases he
  | ok r =>
    obtain ⟨i, -, rfl⟩ := List.mem_map.mp he
    exact ⟨_, _, rfl⟩

/-- What only the steps of a run tell of is counted step by step. -/
theorem total_eventsOf {label? : Event → Option Labels} {amount : Event → Nat} {f : Step → Nat}
    (hstep : ∀ s : Step, total label? amount (s.events c t) [("rule_id", id)] =
      if s.entry.id = id then f s else 0)
    (hissue : ∀ rule severity, label? (.issue rule severity) = none)
    (hrun : ∀ status duration n, label? (.run status duration n) = none) :
    total label? amount (eventsOf c v t steps out) [("rule_id", id)] = sumOver id f steps := by
  have hissues : total label? amount (issueEvents out) [("rule_id", id)] = 0 := by
    refine total_eq_zero fun e he => ?_
    obtain ⟨rule, severity, rfl⟩ := mem_issueEvents he
    rw [hissue]
    nofun
  have hend : total label? amount [.run (statusOf c out).word t.run v.size] [("rule_id", id)] =
      0 := by
    refine total_eq_zero fun e he => ?_
    rw [List.mem_singleton.mp he, hrun]
    nofun
  rw [eventsOf_eq, total_append, total_append, hissues, hend, total_flatMap]
  exact congrArg List.sum (List.map_congr_left fun s _ => hstep s)

theorem findingsTotal_eventsOf :
    findingsTotal (eventsOf c v t steps out) id = sumOver id (·.handed.length) steps :=
  total_eventsOf findingsTotal_step (fun _ _ => rfl) fun _ _ _ => rfl

theorem suppressedTotal_eventsOf :
    suppressedTotal (eventsOf c v t steps out) id = sumOver id (·.suppressed c) steps :=
  total_eventsOf suppressedTotal_step (fun _ _ => rfl) fun _ _ _ => rfl

theorem issueSeverities_eventsOf :
    issueSeverities (eventsOf c v t steps out) id = issueSeverities (issueEvents out) id := by
  have hsteps : issueSeverities (steps.flatMap (·.events c t)) id = [] :=
    List.filterMap_eq_nil_iff.mpr fun e he => (labels_of_mem_steps he).1 id
  unfold issueSeverities at hsteps ⊢
  rw [eventsOf_eq, List.filterMap_append, List.filterMap_append, hsteps]
  exact List.append_nil _

theorem word_inj {s s' : RunStatus} : s.word = s'.word ↔ s = s' := by
  cases s <;> cases s' <;> decide

/-- **A run counts once**, under the way in which it ended. -/
theorem runsTotal_eventsOf (s : RunStatus) :
    runsTotal (eventsOf c v t steps out) s = if statusOf c out = s then 1 else 0 := by
  have hsteps : runsTotal (steps.flatMap (·.events c t)) s = 0 := total_eq_zero fun e he => by
    rw [(labels_of_mem_steps he).2]
    nofun
  have hissues : runsTotal (issueEvents out) s = 0 := total_eq_zero fun e he => by
    obtain ⟨_, _, rfl⟩ := mem_issueEvents he
    nofun
  rw [runsTotal] at hissues hsteps ⊢
  rw [eventsOf_eq, total_append, total_append, hissues, hsteps, total_one]
  simp [runLabels?, List.countP_cons, word_inj]

theorem ruleId_of_mem_issues {s : Step} {i : Issue} (hi : i ∈ s.issues c) :
    i.ruleId = s.entry.id := by
  rw [step_issues] at hi
  obtain ⟨f, -, hf⟩ := List.mem_filterMap.mp hi
  split at hf
  · cases hf
    rfl
  · cases hf

/-- The issues of a rule are those of its steps. -/
theorem length_issueSeverities {r : Result} (h : conclude c registered v runId steps = .ok r) :
    (issueSeverities (issueEvents (.ok r)) id).length =
      sumOver id (fun s => (s.issues c).length) steps := by
  have hissues : r.issues = sortIssues (steps.flatMap (·.issues c)) := by
    unfold conclude at h
    split at h
    · cases h
    · cases h
      rfl
  have hlength : (issueSeverities (issueEvents (.ok r)) id).length =
      r.issues.countP fun i => i.ruleId == id := by
    unfold issueSeverities issueEvents
    rw [List.filterMap_map, List.length_filterMap_eq_countP]
    refine List.countP_congr fun i _ => ?_
    by_cases hid : i.ruleId = id <;> simp [issueSeverity?, hid]
  have hperm : (sortIssues (steps.flatMap (·.issues c))).Perm (steps.flatMap (·.issues c)) :=
    List.mergeSort_perm _ _
  rw [hlength, hissues, hperm.countP_eq, List.countP_flatMap, sumOver]
  refine congrArg List.sum (List.map_congr_left fun s _ => ?_)
  show List.countP _ (s.issues c) = _
  split
  · rename_i hid
    exact List.countP_eq_length.mpr fun i hi => by simp [ruleId_of_mem_issues hi, hid]
  · rename_i hid
    exact List.countP_eq_zero.mpr fun i hi => by simp [ruleId_of_mem_issues hi, hid]

/-- What the steps of a rule find is suppressed or issued. -/
theorem sumOver_balance (c : Compiled) (id : String) (steps : List Step) :
    sumOver id (·.findings.length) steps =
      sumOver id (·.suppressed c) steps + sumOver id (fun s => (s.issues c).length) steps := by
  induction steps with
  | nil => rfl
  | cons s steps ih =>
    have hstep := step_balance c s
    unfold sumOver at ih ⊢
    simp only [List.map_cons, List.sum_cons, ih]
    split <;> omega

theorem sumOver_le {f f' : Step → Nat} (h : ∀ s ∈ steps, f s ≤ f' s) :
    sumOver id f steps ≤ sumOver id f' steps := by
  unfold sumOver
  refine List.sum_le_sum fun s hs => ?_
  split
  · exact h s hs
  · exact Nat.le_refl _

/-- The rules of a run with a result hand back their findings. -/
theorem sumOver_handed {r : Result} (h : conclude c registered v runId steps = .ok r) (id : String) :
    sumOver id (·.handed.length) steps = sumOver id (·.findings.length) steps := by
  have hnone : steps.findSome? (·.error? registered) = none := by
    unfold conclude at h
    split at h
    · cases h
    · assumption
  rw [List.findSome?_eq_none_iff] at hnone
  refine congrArg List.sum (List.map_congr_left fun s hs => ?_)
  dsimp only
  rw [handed_of_no_error (hnone s hs)]

end Run

/-! ## 5. Sequences of runs -/

theorem stepsFrom_const (outcome : RuleEntry → Outcome) (place : Nat) (es : List RuleEntry) :
    stepsFrom (fun _ => outcome) place es = stepsOf outcome es := by
  induction es generalizing place with
  | nil => rfl
  | cons e es ih =>
    rw [stepsFrom, stepsOf]
    cases outcome e with
    | found fs => exact congrArg _ (ih (place + 1))
    | cancelled => rfl
    | unknown => rfl
    | failed x made => rfl

/-- A run is called off at its start or not at all. -/
theorem run_eq_runUntil (g : Rule.Registry) (cancelled : Bool) :
    run c g v runId t cancelled =
      runUntil c g v runId t (if cancelled then some (.before 0) else none) := by
  have hsteps : stepsOf (outcomeOf g v cancelled) c.enabledRules =
      stepsFrom (outcomeAt g v (if cancelled then some (.before 0) else none)) 0
        c.enabledRules := by
    rw [← stepsFrom_const _ 0]
    cases cancelled <;> rfl
  unfold run runUntil
  rw [hsteps]

/-- A run, as it is asked for: of the rules in a registry on an inventory, and called off at some
time or not at all. -/
structure Call where
  config : Compiled
  registry : Rule.Registry
  inventory : Inventory
  runId : String
  timing : Timing
  stop : Option Stop

/-- How a run ends, and what it tells about itself. -/
def Call.answer (k : Call) : Except Error Result × Record :=
  runUntil k.config k.registry k.inventory k.runId k.timing k.stop

/-- The steps that a run comes to. -/
def Call.steps (k : Call) : List Step :=
  stepsFrom (outcomeAt k.registry k.inventory k.stop) 0 k.config.enabledRules

/-- Whether a run is aborted: it has no result but an error. -/
def Call.Aborts (k : Call) : Prop := ∃ e, k.answer.1 = .error e

/-- What a collector has been told after some runs. -/
def collected (ks : List Call) : List Event := ks.flatMap (·.answer.2.events)

theorem collected_cons (k : Call) (ks : List Call) :
    collected (k :: ks) = collected [k] ++ collected ks := by
  simp [collected]

theorem collected_concat (ks : List Call) (k : Call) :
    collected (ks ++ [k]) = collected ks ++ collected [k] := List.flatMap_append

/-- How a run ends is what its steps give. -/
theorem Call.answer_eq (k : Call) : ∃ out,
    conclude k.config k.registry.ids k.inventory k.runId k.steps = out ∧
      collected [k] = eventsOf k.config k.inventory k.timing k.steps out ∧
      (k.Aborts ↔ ∃ e, out = .error e) := by
  refine ⟨_, rfl, by simp [collected, answer, runUntil, steps], ?_⟩
  unfold Aborts answer runUntil
  rw [← steps]
  cases hout : conclude k.config k.registry.ids k.inventory k.runId k.steps with
  | error e => simp [hout, Except.mapError]
  | ok r => simp [hout, Except.mapError]

/-- **A run counts once**, as an error if and only if it is aborted. -/
theorem Call.counted (k : Call) : ∃ s : RunStatus, (s = .error ↔ k.Aborts) ∧
    ∀ s', runsTotal (collected [k]) s' = if s = s' then 1 else 0 := by
  obtain ⟨out, -, hevents, haborts⟩ := k.answer_eq
  refine ⟨statusOf k.config out, ?_, fun s' => ?_⟩
  · rw [haborts]
    unfold statusOf
    cases out with
    | error e => simp
    | ok r => cases hfails : r.fails k.config.failOn <;> simp [hfails]
  · rw [hevents, runsTotal_eventsOf]

theorem Call.findingsTotal_eq (k : Call) (id : String) :
    findingsTotal (collected [k]) id = sumOver id (·.handed.length) k.steps := by
  obtain ⟨out, -, hevents, -⟩ := k.answer_eq
  rw [hevents, findingsTotal_eventsOf]

theorem Call.suppressedTotal_eq (k : Call) (id : String) :
    suppressedTotal (collected [k]) id = sumOver id (·.suppressed k.config) k.steps := by
  obtain ⟨out, -, hevents, -⟩ := k.answer_eq
  rw [hevents, suppressedTotal_eventsOf]

theorem Call.issueSeverities_of_aborts {k : Call} (h : k.Aborts) (id : String) :
    issueSeverities (collected [k]) id = [] := by
  obtain ⟨out, -, hevents, haborts⟩ := k.answer_eq
  obtain ⟨e, rfl⟩ := haborts.mp h
  rw [hevents, issueSeverities_eventsOf]
  rfl

/-- The issues of a rule in a run with a result are those of the rule's steps. -/
theorem Call.issuesOverSeverities_eq {k : Call} (h : ¬ k.Aborts) (id : String) :
    issuesOverSeverities (collected [k]) id =
      sumOver id (fun s => (s.issues k.config).length) k.steps := by
  obtain ⟨out, hout, hevents, haborts⟩ := k.answer_eq
  cases out with
  | error e => exact absurd (haborts.mpr ⟨e, rfl⟩) h
  | ok r =>
    rw [issuesOverSeverities_eq_length, hevents, issueSeverities_eventsOf,
      length_issueSeverities hout]

/-- **A run with a result tells of all findings as suppressed or as issues.** -/
theorem Call.balance {k : Call} (h : ¬ k.Aborts) (id : String) :
    findingsTotal (collected [k]) id =
      suppressedTotal (collected [k]) id + issuesOverSeverities (collected [k]) id := by
  obtain ⟨out, hout, -, haborts⟩ := k.answer_eq
  cases out with
  | error e => exact absurd (haborts.mpr ⟨e, rfl⟩) h
  | ok r =>
    rw [k.findingsTotal_eq, sumOver_handed hout, k.suppressedTotal_eq, issuesOverSeverities_eq h,
      sumOver_balance]

/-- An aborted run tells of no issue, and of no more suppressed findings than findings. -/
theorem Call.balance_le (k : Call) (id : String) :
    suppressedTotal (collected [k]) id + issuesOverSeverities (collected [k]) id ≤
      findingsTotal (collected [k]) id := by
  by_cases haborts : k.Aborts
  · have hnone := issueSeverities_of_aborts haborts id
    rw [issuesOverSeverities_eq_length, hnone, k.findingsTotal_eq, k.suppressedTotal_eq]
    calc sumOver id (·.suppressed k.config) k.steps + 0
        ≤ sumOver id (·.findings.length) k.steps := by
          rw [sumOver_balance k.config]
          exact Nat.le_add_right _ _
      _ ≤ sumOver id (·.handed.length) k.steps := sumOver_le fun s _ => length_findings_le s
  · exact Nat.le_of_eq (balance haborts id).symm

theorem runsTotal_collected (ks : List Call) :
    runsTotal (collected ks) .success + runsTotal (collected ks) .failed +
      runsTotal (collected ks) .error = ks.length := by
  induction ks with
  | nil => rfl
  | cons k ks ih =>
    obtain ⟨s, -, hs⟩ := k.counted
    rw [collected_cons, runsTotal_append, runsTotal_append, runsTotal_append, hs, hs, hs,
      List.length_cons, ← ih]
    cases s <;> simp <;> omega

/-- No sequence of runs tells of more suppressed findings and issues of a rule than of findings. -/
theorem collected_balance_le (ks : List Call) (id : String) :
    suppressedTotal (collected ks) id + issuesOverSeverities (collected ks) id ≤
      findingsTotal (collected ks) id := by
  induction ks with
  | nil => exact Nat.le_refl _
  | cons k ks ih =>
    have hk := k.balance_le id
    rw [collected_cons, suppressedTotal_append, issuesOverSeverities_append, findingsTotal_append]
    omega

/-- Runs with results tell of all findings as suppressed or as issues. -/
theorem collected_balance {ks : List Call} (h : ∀ k ∈ ks, ¬ k.Aborts) (id : String) :
    findingsTotal (collected ks) id =
      suppressedTotal (collected ks) id + issuesOverSeverities (collected ks) id := by
  induction ks with
  | nil => rfl
  | cons k ks ih =>
    have hk := Call.balance (h k List.mem_cons_self) id
    have hks := ih fun l hl => h l (List.mem_cons_of_mem _ hl)
    rw [collected_cons, suppressedTotal_append, issuesOverSeverities_append, findingsTotal_append]
    omega

/-- **The counters balance after any sequence of runs**, of which each may have a result or be
aborted: every run is counted once, under the way in which it ended; an aborted run changes nothing
about the issues; and the findings of every rule are at least those suppressed and those issued, and
exactly these as long as no run was aborted. -/
theorem counters_balance (ks : List Call) :
    let es := collected ks
    (runsTotal es .success + runsTotal es .failed + runsTotal es .error = ks.length) ∧
    (∀ k : Call, ∃ s : RunStatus, (s = .error ↔ k.Aborts) ∧
      ∀ s', runsTotal (collected (ks ++ [k])) s' = runsTotal es s' + if s = s' then 1 else 0) ∧
    (∀ k : Call, k.Aborts → ∀ id severity,
      issuesTotal (collected (ks ++ [k])) id severity = issuesTotal es id severity) ∧
    (∀ id, suppressedTotal es id + issuesOverSeverities es id ≤ findingsTotal es id) ∧
    ((∀ k ∈ ks, ¬ k.Aborts) → ∀ id,
      findingsTotal es id = suppressedTotal es id + issuesOverSeverities es id) := by
  refine ⟨runsTotal_collected ks, fun k => ?_, fun k haborts id severity => ?_,
    collected_balance_le ks, collected_balance⟩
  · obtain ⟨s, hs, hcount⟩ := k.counted
    refine ⟨s, hs, fun s' => ?_⟩
    rw [collected_concat, runsTotal_append, hcount]
  · have hnone := Call.issueSeverities_of_aborts haborts id
    rw [issuesTotal_eq_count, issuesTotal_eq_count, collected_concat, issueSeverities,
      List.filterMap_append, ← issueSeverities, ← issueSeverities, hnone, List.append_nil]

/-- A run of one rule on three functions. -/
def wholeCall : Call := ⟨presenceOnly, .builtin, bareFunctions, "", .none, none⟩

/-- A run of two rules, called off between them. -/
def brokenCall : Call where
  config := { presenceOnly with
    rules := presenceOnly.rules ++ [⟨"doc-name-prefix", true, ⟨""⟩, none, none⟩] }
  registry := .builtin
  inventory := bareFunctions
  runId := ""
  timing := .none
  stop := some (.before 1)

theorem counters_balance_of_two :
    let es := collected [wholeCall]
    let es' := collected ([wholeCall] ++ [brokenCall])
    ¬ wholeCall.Aborts ∧ brokenCall.Aborts ∧
      findingsTotal es "doc-presence" =
        suppressedTotal es "doc-presence" + issuesOverSeverities es "doc-presence" ∧
      issuesTotal es' "doc-presence" "ERROR" = issuesTotal es "doc-presence" "ERROR" ∧
      runsTotal es' .error = runsTotal es .error + 1 ∧
      findingsTotal es "doc-presence" = 3 ∧ findingsTotal es' "doc-presence" = 6 := by
  have hwhole : ∃ r, wholeCall.answer.1 = .ok r := ⟨_, rfl⟩
  have hbroken : brokenCall.Aborts := ⟨_, rfl⟩
  have hresult : ¬ wholeCall.Aborts := by
    rintro ⟨e, he⟩
    obtain ⟨r, hr⟩ := hwhole
    rw [hr] at he
    cases he
  obtain ⟨-, hcount, hissues, -, hbalance⟩ := counters_balance [wholeCall]
  obtain ⟨s, hs, hone⟩ := hcount brokenCall
  have hthree : findingsTotal (collected [wholeCall]) "doc-presence" = 3 := by
    rw [wholeCall.findingsTotal_eq]
    decide
  refine ⟨hresult, hbroken, hbalance (by simpa using hresult) _, hissues _ hbroken _ _, ?_,
    hthree, ?_⟩
  · rw [hone, hs.mpr hbroken]
    rfl
  · rw [collected_concat, findingsTotal_append, hthree, brokenCall.findingsTotal_eq]
    decide

end DocAudit.Audit
