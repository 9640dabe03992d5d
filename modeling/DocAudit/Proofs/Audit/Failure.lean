import DocAudit.Proofs.Audit.Result
import DocAudit.Proofs.Rule.Local
import DocAudit.Proofs.Rule.Registry

/-!
# Runs that fail

A run goes through the enabled entries in their order and ends at the first that fails: at one whose
rule is not known, or whose rule does not give findings.

* `EndsWith` says how an entry that fails ends the run, and `error?_eq_some_iff` that its step has
  that error;
* `stepsOf_of_first`: the steps of a run end at the first entry that fails;
* `run_of_enabledRules_eq`: entries that are not enabled do not matter;
* `run_fails_at_first`: when a run fails, with which error, and what it has evaluated until then;
* `runOn_none_iff`: a run without an inventory has a result only if it has nothing to do.
-/

namespace DocAudit.Audit

open DocAudit.Policy DocAudit.Text

variable {c : Compiled} {g : Rule.Registry} {v : Inventory} {runId : String} {t : Timing}
  {e : RuleEntry} {x : Error}

/-! ## 1. One entry -/

/-- An entry whose rule is not known, or fails. -/
def EntryFails (g : Rule.Registry) (v : Inventory) (e : RuleEntry) : Prop :=
  g.lookup e.id = none ∨
    ∃ rule x, g.lookup e.id = some rule ∧ rule.evaluate v e.options false = .error x

/-- **How an entry that fails ends a run.**  An unknown rule is reported with the ids of the known
ones in the order of their bytes.  What a rule fails with stays as it is if it is, or wraps
somewhere, an error about what does not compile; else it is reported with the id of the entry. -/
inductive EndsWith (g : Rule.Registry) (v : Inventory) (e : RuleEntry) : Error → Prop
  | unknown {ids : List String} (absent : g.lookup e.id = none)
      (listed : ids.Perm (g.rules.map (·.id)))
      (sorted : ids.Pairwise fun a b => utf8 a ≤ utf8 b) :
      EndsWith g v e (.unknownRule e.id ids)
  | rejected {rule : Rule} {x : Error} {problems : List Problem}
      (known : g.lookup e.id = some rule) (fails : rule.evaluate v e.options false = .error x)
      (within : .uncompiled problems ∈ x.nodes) : EndsWith g v e x
  | failed {rule : Rule} {x : Error} (known : g.lookup e.id = some rule)
      (fails : rule.evaluate v e.options false = .error x)
      (without : ∀ problems, .uncompiled problems ∉ x.nodes) : EndsWith g v e (.rule e.id x)

theorem rejectsOptions_iff : rejectsOptions x = true ↔ ∃ ps, .uncompiled ps ∈ x.nodes := by
  unfold rejectsOptions Error.has
  rw [List.any_eq_true]
  constructor
  · rintro ⟨y, hy, huncompiled⟩
    split at huncompiled
    · exact ⟨_, hy⟩
    · cases huncompiled
  · rintro ⟨ps, hps⟩
    exact ⟨_, hps, rfl⟩

/-- There is one sorted list of the ids of a registry. -/
theorem eq_ids_iff {ids : List String} :
    (ids.Perm (g.rules.map (·.id)) ∧ ids.Pairwise fun a b => utf8 a ≤ utf8 b) ↔ ids = g.ids := by
  have hperm : g.ids.Perm (g.rules.map (·.id)) := g.perm_all.map _
  have hsorted : g.ids.Pairwise (· ≤ ·) := List.pairwise_map.mpr g.pairwise_all
  simp only [utf8_le_iff]
  constructor
  · rintro ⟨h, hs⟩
    exact (h.trans hperm.symm).eq_of_pairwise (fun a b _ _ => String.le_antisymm) hs hsorted
  · rintro rfl
    exact ⟨hperm, hsorted⟩

theorem outcomeOf_of_absent (h : g.lookup e.id = none) : outcomeOf g v false e = .unknown := by
  simp [outcomeOf, h]

theorem ofEvaluation_of_error {y : Evaluation} (h : y.result = .error x) :
    Outcome.ofEvaluation y = .failed x y.findings := by
  obtain ⟨fs, failure⟩ := y
  cases failure with
  | none => cases h
  | some z =>
    cases h
    rfl

/-- The step of a rule that fails keeps what the rule has handed back besides. -/
theorem outcomeOf_of_error {rule : Rule} (hl : g.lookup e.id = some rule)
    (hev : rule.evaluate v e.options false = .error x) :
    outcomeOf g v false e = .failed x (rule.evaluation v e.options false).findings := by
  unfold outcomeOf
  rw [hl]
  exact ofEvaluation_of_error hev

theorem outcomeOf_of_ok {rule : Rule} {fs : List Finding} (hl : g.lookup e.id = some rule)
    (hev : rule.evaluate v e.options false = .ok fs) : outcomeOf g v false e = .found fs :=
  outcomeOf_eq_found_iff.mpr ⟨rfl, rule, hl, hev⟩

theorem error?_failed (registered : List String) (made : List Finding) :
    (Step.mk e (.failed x made)).error? registered =
      some (if rejectsOptions x then x else .rule e.id x) := rfl

/-- **The step of an entry has the error with which the entry ends a run.** -/
theorem error?_eq_some_iff :
    (Step.mk e (outcomeOf g v false e)).error? g.ids = some x ↔ EndsWith g v e x := by
  constructor
  · intro h
    cases hl : g.lookup e.id with
    | none =>
      rw [outcomeOf_of_absent hl] at h
      cases h
      obtain ⟨hperm, hsorted⟩ := eq_ids_iff.mpr (rfl : g.ids = g.ids)
      exact .unknown hl hperm hsorted
    | some rule =>
      cases hev : rule.evaluate v e.options false with
      | ok fs =>
        rw [outcomeOf_of_ok hl hev] at h
        cases h
      | error y =>
        rw [outcomeOf_of_error hl hev, error?_failed] at h
        by_cases hrejects : rejectsOptions y = true
        · rw [if_pos hrejects] at h
          cases h
          obtain ⟨ps, hps⟩ := rejectsOptions_iff.mp hrejects
          exact .rejected hl hev hps
        · rw [if_neg hrejects] at h
          cases h
          exact .failed hl hev fun ps hps => hrejects (rejectsOptions_iff.mpr ⟨ps, hps⟩)
  · rintro (⟨habsent, hperm, hsorted⟩ | ⟨hl, hev, hps⟩ | ⟨hl, hev, hnone⟩)
    · rw [outcomeOf_of_absent habsent, eq_ids_iff.mp ⟨hperm, hsorted⟩]
      rfl
    · rw [outcomeOf_of_error hl hev, error?_failed, if_pos (rejectsOptions_iff.mpr ⟨_, hps⟩)]
    · rw [outcomeOf_of_error hl hev, error?_failed, if_neg]
      rintro hrejects
      obtain ⟨ps, hps⟩ := rejectsOptions_iff.mp hrejects
      exact hnone ps hps

theorem not_entryFails_iff :
    ¬ EntryFails g v e ↔ ∃ fs, outcomeOf g v false e = .found fs := by
  constructor
  · intro h
    obtain ⟨hknown, hgives⟩ := not_or.mp h
    obtain ⟨rule, hl⟩ := Option.ne_none_iff_exists'.mp hknown
    cases hev : rule.evaluate v e.options false with
    | ok fs => exact ⟨fs, outcomeOf_of_ok hl hev⟩
    | error y => exact absurd ⟨rule, y, hl, hev⟩ hgives
  · rintro ⟨fs, ho⟩ hfails
    obtain ⟨-, rule, hl, hev⟩ := outcomeOf_eq_found_iff.mp ho
    rcases hfails with habsent | ⟨rule', y, hl', hev'⟩
    · rw [habsent] at hl
      cases hl
    · obtain rfl : rule' = rule := Option.some.inj (hl'.symm.trans hl)
      rw [hev] at hev'
      cases hev'

theorem error?_eq_none_iff (registered : List String) :
    (Step.mk e (outcomeOf g v false e)).error? registered = none ↔ ¬ EntryFails g v e := by
  rw [not_entryFails_iff]
  cases ho : outcomeOf g v false e <;> simp [Step.error?]

/-! ## 2. The entries of a run -/

/-- The steps of a run end at the first entry that does not end with findings. -/
theorem stepsOf_of_first {outcome : RuleEntry → Outcome} {after : List RuleEntry}
    (h : ∀ fs, outcome e ≠ .found fs) : ∀ {before : List RuleEntry},
    (∀ b ∈ before, ∃ fs, outcome b = .found fs) →
      stepsOf outcome (before ++ e :: after) = (before ++ [e]).map fun b => ⟨b, outcome b⟩
  | [], _ => by
      cases ho : outcome e with
      | found fs => exact absurd ho (h fs)
      | cancelled => simp [stepsOf, ho]
      | unknown => simp [stepsOf, ho]
      | failed y made => simp [stepsOf, ho]
  | b :: before, hbefore => by
      rw [List.forall_mem_cons] at hbefore
      obtain ⟨fs, ho⟩ := hbefore.1
      have ih : stepsOf outcome (before ++ e :: after) = _ := stepsOf_of_first h hbefore.2
      simp only [List.cons_append, stepsOf, ho, ih, List.map_cons]

/-- **Entries that are not enabled do not matter**, neither to the end of a run nor to what it tells
about itself. -/
theorem run_of_enabledRules_eq {rules : List RuleEntry} {cancelled : Bool}
    (h : rules.filter (·.enabled) = c.enabledRules) :
    run { c with rules := rules } g v runId t cancelled = run c g v runId t cancelled := by
  have henabled : ({ c with rules := rules } : Compiled).enabledRules = c.enabledRules := h
  unfold run logOf startLog
  rw [henabled]
  rfl

/-- What comes of an entry hangs on the rule of its id alone. -/
theorem outcomeOf_congr {g' : Rule.Registry} (h : g'.lookup e.id = g.lookup e.id) :
    outcomeOf g' v false e = outcomeOf g v false e := by
  unfold outcomeOf
  rw [h]

theorem entryFails_congr {g' : Rule.Registry} (h : g'.lookup e.id = g.lookup e.id) :
    EntryFails g' v e ↔ EntryFails g v e := by
  unfold EntryFails
  rw [h]

/-! ## 3. What a run evaluates -/

/-- The ids of the entries whose rules have been evaluated, in their order. -/
def evaluated (es : List Metrics.Event) : List String :=
  es.filterMap fun
    | .evaluation id _ _ _ => some id
    | _ => none

theorem evaluated_step : evaluated ((Step.mk e (outcomeOf g v false e)).events c t) =
    if (g.lookup e.id).isSome then [e.id] else [] := by
  cases hl : g.lookup e.id with
  | none =>
    rw [outcomeOf_of_absent hl]
    rfl
  | some rule =>
    cases hev : rule.evaluate v e.options false with
    | error y =>
      rw [outcomeOf_of_error hl hev]
      rfl
    | ok fs =>
      rw [outcomeOf_of_ok hl hev]
      simp only [Step.events, Option.isSome_some, if_true]
      split <;> rfl

theorem evaluated_eventsOf (steps : List Step) (out : Except Error Result) :
    evaluated (eventsOf c v t steps out) = steps.flatMap fun s => evaluated (s.events c t) := by
  unfold evaluated eventsOf
  rw [List.filterMap_append, List.filterMap_append, List.filterMap_flatMap]
  cases out <;> simp

/-! ## 4. The first entry that fails -/

section First

variable {before after : List RuleEntry} (hsplit : c.enabledRules = before ++ e :: after)
  (hbefore : ∀ b ∈ before, ¬ EntryFails g v b) (hfails : EntryFails g v e)
include hsplit hbefore hfails

theorem steps_of_first :
    stepsOf (outcomeOf g v false) c.enabledRules =
      (before ++ [e]).map fun b => ⟨b, outcomeOf g v false b⟩ := by
  rw [hsplit]
  refine stepsOf_of_first (fun fs ho => ?_) fun b hb => not_entryFails_iff.mp (hbefore b hb)
  exact not_entryFails_iff.mpr ⟨fs, ho⟩ hfails

/-- **The rules of the entries behind the first that fails have no part in a run.** -/
theorem run_congr_of_first {g' : Rule.Registry}
    (hlookup : ∀ b ∈ before ++ [e], g'.lookup b.id = g.lookup b.id) (hids : g'.ids = g.ids) :
    run c g' v runId t false = run c g v runId t false := by
  have hbefore' : ∀ b ∈ before, ¬ EntryFails g' v b := by
    intro b hb
    rw [entryFails_congr (hlookup b (by simp [hb]))]
    exact hbefore b hb
  have hfails' : EntryFails g' v e := (entryFails_congr (hlookup e (by simp))).mpr hfails
  have hsteps : stepsOf (outcomeOf g' v false) c.enabledRules =
      stepsOf (outcomeOf g v false) c.enabledRules := by
    rw [steps_of_first hsplit hbefore hfails, steps_of_first hsplit hbefore' hfails']
    exact List.map_congr_left fun b hb => by rw [outcomeOf_congr (hlookup b hb)]
  unfold run
  rw [hsteps, hids]

/-- **A run that fails has evaluated the known rules up to the entry that fails, and no other.** -/
theorem evaluated_run_of_first :
    evaluated (run c g v runId t false).2.events =
      ((before ++ [e]).filter fun b => (g.lookup b.id).isSome).map (·.id) := by
  have hevents : (run c g v runId t false).2.events =
      eventsOf c v t (stepsOf (outcomeOf g v false) c.enabledRules)
        (conclude c g.ids v runId (stepsOf (outcomeOf g v false) c.enabledRules)) := rfl
  rw [hevents, evaluated_eventsOf, steps_of_first hsplit hbefore hfails, List.flatMap_map]
  simp only [evaluated_step]
  generalize before ++ [e] = es
  induction es with
  | nil => rfl
  | cons b es ih =>
    rw [List.flatMap_cons, ih, List.filter_cons]
    split <;> rfl

end First

/-! ## 5. The whole -/

theorem entryFails_of_endsWith (h : EndsWith g v e x) : EntryFails g v e := by
  rcases h with ⟨habsent, -, -⟩ | ⟨hl, hev, -⟩ | ⟨hl, hev, -⟩
  · exact .inl habsent
  · exact .inr ⟨_, _, hl, hev⟩
  · exact .inr ⟨_, _, hl, hev⟩

theorem run_eq_error_iff_first : (run c g v runId t false).1 = .error x ↔
    ∃ before e after y, c.enabledRules = before ++ e :: after ∧
      (∀ b ∈ before, ¬ EntryFails g v b) ∧ EndsWith g v e y ∧
        x = .context "audit run failed" y := by
  rw [run_eq_error_iff]
  simp only [List.findSome?_eq_some_iff, error?_eq_none_iff, error?_eq_some_iff]
  constructor
  · rintro ⟨y, ⟨before, e, after, hsplit, hy, hbefore⟩, hx⟩
    exact ⟨before, e, after, y, hsplit, hbefore, hy, hx⟩
  · rintro ⟨before, e, after, y, hsplit, hbefore, hy, hx⟩
    exact ⟨y, ⟨before, e, after, hsplit, hy, hbefore⟩, hx⟩

theorem exists_error_iff : (∃ x, (run c g v runId t false).1 = .error x) ↔
    ∃ e ∈ c.enabledRules, EntryFails g v e := by
  constructor
  · rintro ⟨x, hx⟩
    obtain ⟨before, e, after, y, hsplit, -, hy, -⟩ := run_eq_error_iff_first.mp hx
    exact ⟨e, by simp [hsplit], entryFails_of_endsWith hy⟩
  · rintro ⟨e, he, hfails⟩
    cases h : (run c g v runId t false).1 with
    | error x => exact ⟨x, rfl⟩
    | ok r => exact absurd hfails (not_entryFails_iff.mpr ((run_eq_ok_iff.mp h).1 e he))

/-- **How a run ends is decided by the first entry that fails.**  It has no result just when an
enabled entry fails, and its error is that of the first such entry in the declared order.  The rules
of the entries before it are evaluated, its own if it is known, and none behind it, whatever rules
these would have.  Entries that are not enabled have no part in any of this. -/
theorem run_fails_at_first (c : Compiled) (g : Rule.Registry) (v : Inventory) (runId : String)
    (t : Timing) :
    ((∃ x, (run c g v runId t false).1 = .error x) ↔ ∃ e ∈ c.enabledRules, EntryFails g v e) ∧
    (∀ x, (run c g v runId t false).1 = .error x ↔ ∃ before e after y,
      c.enabledRules = before ++ e :: after ∧ (∀ b ∈ before, ¬ EntryFails g v b) ∧
        EndsWith g v e y ∧ x = .context "audit run failed" y) ∧
    (∀ before e after, c.enabledRules = before ++ e :: after →
      (∀ b ∈ before, ¬ EntryFails g v b) → EntryFails g v e →
        evaluated (run c g v runId t false).2.events =
          ((before ++ [e]).filter fun b => (g.lookup b.id).isSome).map (·.id) ∧
        ∀ g' : Rule.Registry, (∀ b ∈ before ++ [e], g'.lookup b.id = g.lookup b.id) →
          g'.ids = g.ids → run c g' v runId t false = run c g v runId t false) ∧
    ∀ rules, rules.filter (·.enabled) = c.enabledRules →
      run { c with rules := rules } g v runId t false = run c g v runId t false := by
  refine ⟨exists_error_iff, fun x => run_eq_error_iff_first, ?_, fun rules => ?_⟩
  · intro before e after hsplit hbefore hfails
    exact ⟨evaluated_run_of_first hsplit hbefore hfails, fun g' =>
      run_congr_of_first hsplit hbefore hfails⟩
  · exact run_of_enabledRules_eq

/-- A rule that finds something on every element, and fails. -/
def failingRule : Rule :=
  ⟨"doc-failure", "", fun _ => .ok fun _ v => ⟨v.elements.map (⟨·, "seen"⟩),
    some (.plain "out of order")⟩⟩

/-- A registry with a rule that fails and one that finds things. -/
def mixedRegistry : Rule.Registry := ⟨[failingRule, Rule.docPresence]⟩

/-- An entry without conditions. -/
def entryOf (id : String) (enabled : Bool) : RuleEntry := ⟨id, enabled, ⟨""⟩, none, none⟩

/-- Entries of which the first is not enabled, the second gives findings, the third fails, and the
last has no rule. -/
def fourEntries : Compiled :=
  { presenceOnly with
    rules := [entryOf "doc-none" false, entryOf "doc-presence" true, entryOf "doc-failure" true,
      entryOf "doc-none" true] }

/-- The third of these entries ends the run, and the last is not evaluated. -/
theorem run_fails_at_first_third :
    (run fourEntries mixedRegistry bareFunctions "" .none false).1 =
        .error (.context "audit run failed" (.rule "doc-failure" (.plain "out of order"))) ∧
      evaluated (run fourEntries mixedRegistry bareFunctions "" .none false).2.events =
        ["doc-presence", "doc-failure"] := by
  have hsplit : fourEntries.enabledRules =
      [entryOf "doc-presence" true] ++ entryOf "doc-failure" true :: [entryOf "doc-none" true] := rfl
  have hbefore : ∀ b ∈ [entryOf "doc-presence" true],
      ¬ EntryFails mixedRegistry bareFunctions b := by
    intro b hb
    rw [List.mem_singleton.mp hb, not_entryFails_iff]
    exact ⟨_, rfl⟩
  have hknown : mixedRegistry.lookup (entryOf "doc-failure" true).id = some failingRule := rfl
  have hfails : failingRule.evaluate bareFunctions none false = .error (.plain "out of order") := rfl
  have hplain : ∀ ps, Error.uncompiled ps ∉ (Error.plain "out of order").nodes := by
    intro ps
    simp [Error.nodes]
  have hends := EndsWith.failed (v := bareFunctions) hknown hfails hplain
  obtain ⟨-, herror, hfirst, -⟩ :=
    run_fails_at_first fourEntries mixedRegistry bareFunctions "" .none
  refine ⟨(herror _).mpr ⟨_, _, _, _, hsplit, hbefore, hends, rfl⟩, ?_⟩
  exact (hfirst _ _ _ hsplit hbefore (entryFails_of_endsWith hends)).1

/-! ## 6. Runs without an inventory -/

/-- An entry whose rule does not get to look at an inventory fails on every one. -/
theorem entryFails_of_not_looks (h : ¬ looks g e = true) : EntryFails g v e := by
  unfold looks at h
  cases hl : g.lookup e.id with
  | none => exact .inl hl
  | some rule =>
    cases hp : rule.prepare e.options with
    | error x => exact .inr ⟨rule, x, hl, Rule.evaluate_of_error hp⟩
    | ok look =>
      rw [hl] at h
      exact absurd (by simp [hp, Except.isOk, Except.toBool]) h

/-- **A run without an inventory has a result only if no entry is enabled.** -/
theorem runOn_none_iff :
    (∃ r, (runOn c g none runId t false).1 = .ok (.ok r)) ↔ c.enabledRules = [] := by
  unfold runOn
  cases henabled : c.enabledRules with
  | nil =>
    refine iff_of_true ?_ rfl
    cases h : (run c g .empty runId t false).1 with
    | ok r => exact ⟨r, congrArg Except.ok h⟩
    | error x =>
      obtain ⟨e, he, -⟩ := exists_error_iff.mp ⟨x, h⟩
      rw [henabled] at he
      exact absurd he List.not_mem_nil
  | cons e es =>
    refine iff_of_false ?_ (List.cons_ne_nil e es)
    rintro ⟨r, hr⟩
    by_cases hlooks : looks g e = true
    · simp [hlooks] at hr
    · have hfails : EntryFails g .empty e := entryFails_of_not_looks hlooks
      obtain ⟨x, hx⟩ : ∃ x, (run c g .empty runId t false).1 = .error x :=
        exists_error_iff.mpr ⟨e, henabled ▸ List.mem_cons_self, hfails⟩
      simp [hlooks, hx] at hr

end DocAudit.Audit
