import DocAudit.Proofs.Audit.Failure
import DocAudit.Proofs.Rule.Local

/-!
# Runs on the elements in another order

An inventory lists its elements in the order of their discovery.  A run of built-in rules does not
let it show: as long as no two elements have the same file and display name, another order gives the
same issues in the same places, the same counts, or the same error.

* `error?_outcomeOf`: how a built-in rule fails has nothing to do with the inventory;
* `findingsBy_perm` and `apart_reportedBy`: what an entry reports is only rearranged, and nothing in
  it ties;
* `run_of_perm`: runs on the same elements end alike.
-/

namespace DocAudit.Audit

open DocAudit.Policy

/-- **The rules of the enabled entries are built-in ones**, as far as the registry knows them. -/
def UsesBuiltin (c : Compiled) (g : Rule.Registry) : Prop :=
  ∀ e ∈ c.enabledRules, ∀ rule, g.lookup e.id = some rule →
    Rule.Registry.builtin.lookup e.id = some rule

/-- **No two elements have the same file and display name.** -/
def DistinctPlaces (es : List Element) : Prop :=
  (es.map fun e => (e.sourceFile, e.displayName)).Nodup

variable {c : Compiled} {g : Rule.Registry} {v v' : Inventory} {es es' : List Element}
  {docs : List (ElementKey × String)} {runId : String} {t : Timing} {cancelled : Bool} {r : Result}

/-! ## 1. Failures -/

/-- How the entry of a built-in rule fails has nothing to do with the inventory. -/
theorem error?_outcomeOf {e : RuleEntry} (hb : ∀ rule, g.lookup e.id = some rule →
    Rule.Registry.builtin.lookup e.id = some rule) (v v' : Inventory) (cancelled : Bool)
    (registered : List String) :
    (Step.mk e (outcomeOf g v cancelled e)).error? registered =
      (Step.mk e (outcomeOf g v' cancelled e)).error? registered := by
  cases cancelled with
  | true => rfl
  | false =>
    cases hl : g.lookup e.id with
    | none => rw [outcomeOf_of_absent hl, outcomeOf_of_absent hl]
    | some rule =>
      rcases Rule.fails_or_local_of_builtin (hb rule hl) e.options with ⟨x, hx⟩ | ⟨find, -, hfind⟩
      · rw [outcomeOf_of_error hl (hx v), outcomeOf_of_error hl (hx v'), error?_failed,
          error?_failed]
      · rw [outcomeOf_of_ok hl (hfind v), outcomeOf_of_ok hl (hfind v')]
        rfl

theorem findSome?_congr {α β : Type} {f f' : α → Option β} {xs : List α}
    (h : ∀ x ∈ xs, f x = f' x) : xs.findSome? f = xs.findSome? f' := by
  rw [← Function.id_comp f, ← Function.id_comp f', ← List.findSome?_map, ← List.findSome?_map,
    List.map_congr_left h]

/-- A run of built-in rules fails on all inventories or on none, and with the same error. -/
theorem run_eq_error_congr {runId' : String} {t' : Timing} {x : Error} (hb : UsesBuiltin c g) :
    (run c g v runId t cancelled).1 = .error x ↔ (run c g v' runId' t' cancelled).1 = .error x := by
  rw [run_eq_error_iff, run_eq_error_iff,
    findSome?_congr fun e he => error?_outcomeOf (hb e he) v v' cancelled g.ids]

/-! ## 2. Findings -/

/-- What a built-in rule finds is found by a local rule. -/
theorem exists_local_of_builtin (hb : UsesBuiltin c g) {e : RuleEntry} (he : e ∈ c.enabledRules)
    (hv : ∃ fs, outcomeOf g v cancelled e = .found fs) :
    ∃ find, Rule.IsLocal find ∧ ∀ u, findingsBy g u e = find u := by
  obtain ⟨fs, ho⟩ := hv
  obtain ⟨-, rule, hl, hev⟩ := outcomeOf_eq_found_iff.mp ho
  rcases Rule.fails_or_local_of_builtin (hb e he rule hl) e.options with ⟨x, hx⟩ | ⟨find, hf, hfind⟩
  · rw [hx v] at hev
    cases hev
  · exact ⟨find, hf, fun u => findingsBy_eq hl (hfind u)⟩

/-- Another order of the elements rearranges the findings. -/
theorem findingsBy_perm {e : RuleEntry} {find : Inventory → List Finding} (hf : Rule.IsLocal find)
    (hfind : ∀ u, findingsBy g u e = find u) (hperm : es.Perm es') :
    (findingsBy g ⟨es, docs⟩ e).Perm (findingsBy g ⟨es', docs⟩ e) := by
  rw [hfind, hfind]
  exact hf.perm hperm

theorem elements_reportedBy_sublist (c : Compiled) (e : RuleEntry) : ∀ fs : List Finding,
    ((reportedBy c e fs).map (·.element)).Sublist (fs.map (·.element))
  | [] => List.Sublist.slnil
  | f :: fs => by
      have ih := elements_reportedBy_sublist c e fs
      unfold reportedBy at ih ⊢
      cases hr : c.resolve e f.element with
      | reported s => simpa [hr] using ih.cons_cons f.element
      | outOfScope => simpa [hr] using ih.cons f.element
      | unconfigured => simpa [hr] using ih.cons f.element
      | suppressed k => simpa [hr] using ih.cons f.element

theorem ties_issueBefore_iff (a b : Issue) :
    ties issueBefore a b = true ↔ sortKey a = sortKey b := by
  rw [ties, Bool.and_eq_true, issueBefore_iff, issueBefore_iff, le_antisymm_iff]

/-- **Nothing ties among the issues of an entry** if no two elements share their place. -/
theorem apart_reportedBy {e : RuleEntry} {find : Inventory → List Finding} (hf : Rule.IsLocal find)
    (hfind : ∀ u, findingsBy g u e = find u) (hplaces : DistinctPlaces v.elements) :
    StableSort.Apart issueBefore (reportedBy c e (findingsBy g v e)) := by
  have hsub : ((reportedBy c e (findingsBy g v e)).map (·.element)).Sublist v.elements := by
    refine (elements_reportedBy_sublist c e _).trans ?_
    rw [hfind]
    exact hf.elements_sublist v
  have hdistinct : ((reportedBy c e (findingsBy g v e)).map fun i =>
      (i.element.sourceFile, i.element.displayName)).Nodup := by
    have hmap := hsub.map fun x : Element => (x.sourceFile, x.displayName)
    rw [List.map_map] at hmap
    exact List.Nodup.sublist hmap hplaces
  refine (List.pairwise_map.mp hdistinct).imp fun {a b} hne => ?_
  rw [← Bool.not_eq_true, ties_issueBefore_iff]
  exact fun heq => hne heq

/-! ## 3. The whole run -/

/-- The issues of a run are those of a run on the elements in another order. -/
theorem issues_of_perm {r' : Result} {runId' : String} {t' : Timing} (hb : UsesBuiltin c g)
    (hperm : es.Perm es') (hplaces : DistinctPlaces es)
    (h : (run c g ⟨es, docs⟩ runId t cancelled).1 = .ok r)
    (h' : (run c g ⟨es', docs⟩ runId' t' cancelled).1 = .ok r') : r.issues = r'.issues := by
  have hfound := (run_eq_ok_iff.mp h).1
  rw [issues_of_run h, issues_of_run h']
  refine StableSort.mergeSort_flatMap_of_perm issueBefore_isOrder (fun e he => ?_) fun e he => ?_
  · obtain ⟨find, hf, hfind⟩ := exists_local_of_builtin hb he (hfound e he)
    exact (findingsBy_perm hf hfind hperm).filterMap _
  · obtain ⟨find, hf, hfind⟩ := exists_local_of_builtin hb he (hfound e he)
    exact apart_reportedBy hf hfind hplaces

/-- The counts of a run are those of a run on the elements in another order. -/
theorem stats_of_perm {r' : Result} {runId' : String} {t' : Timing} (hb : UsesBuiltin c g)
    (hperm : es.Perm es') (hplaces : DistinctPlaces es)
    (h : (run c g ⟨es, docs⟩ runId t cancelled).1 = .ok r)
    (h' : (run c g ⟨es', docs⟩ runId' t' cancelled).1 = .ok r') : r.stats = r'.stats := by
  have hfound := (run_eq_ok_iff.mp h).1
  have hfindings : (c.enabledRules.flatMap (findingsBy g ⟨es, docs⟩)).Perm
      (c.enabledRules.flatMap (findingsBy g ⟨es', docs⟩)) := by
    refine List.Perm.flatMap_left _ fun e he => ?_
    obtain ⟨find, hf, hfind⟩ := exists_local_of_builtin hb he (hfound e he)
    exact findingsBy_perm hf hfind hperm
  obtain ⟨helems, hfinds, hbalance⟩ := stats_of_run h
  obtain ⟨helems', hfinds', hbalance'⟩ := stats_of_run h'
  have hsize : r.stats.elements = r'.stats.elements := by
    rw [helems, helems']
    exact congrArg Int.ofNat hperm.length_eq
  have hmade : r.stats.findings = r'.stats.findings := by
    rw [hfinds, hfinds', hfindings.length_eq]
  have hkept : r.issues.length = r'.issues.length :=
    congrArg List.length (issues_of_perm hb hperm hplaces h h')
  have hdropped : r.stats.suppressed = r'.stats.suppressed := by omega
  calc r.stats = ⟨r.stats.elements, r.stats.findings, r.stats.suppressed⟩ := rfl
    _ = ⟨r'.stats.elements, r'.stats.findings, r'.stats.suppressed⟩ := by
      rw [hsize, hmade, hdropped]

/-- **The order of the elements does not show in a run**: on the same elements in another order a
run of built-in rules has the same result, its id aside, or fails with the same error. -/
theorem run_of_perm (hb : UsesBuiltin c g) (hperm : es.Perm es') (hplaces : DistinctPlaces es)
    (docs : List (ElementKey × String)) (runId runId' : String) (t t' : Timing)
    (cancelled : Bool) :
    (run c g ⟨es', docs⟩ runId' t' cancelled).1 =
      (run c g ⟨es, docs⟩ runId t cancelled).1.map fun r => { r with runId := runId' } := by
  cases h : (run c g ⟨es, docs⟩ runId t cancelled).1 with
  | error x => exact (run_eq_error_congr hb).mp h
  | ok r =>
    cases h' : (run c g ⟨es', docs⟩ runId' t' cancelled).1 with
    | error x =>
      rw [(run_eq_error_congr hb).mpr h'] at h
      cases h
    | ok r' =>
      have hissues := issues_of_perm hb hperm hplaces h h'
      have hstats := stats_of_perm hb hperm hplaces h h'
      have hid : r'.runId = runId' := by
        rw [(run_eq_ok_iff.mp h').2]
        rfl
      cases r'
      subst hid
      simp only [Except.map, hissues, hstats]

/-- A configuration with both built-in rules. -/
def bothRules : Compiled :=
  { presenceOnly with
    rules := [⟨"doc-name-prefix", true, .warn, none, none⟩,
      ⟨"doc-presence", true, ⟨""⟩, none, none⟩] }

/-- Two functions, of which the first has a doc comment that begins with another word. -/
def twoFunctions : List Element := [bareFunction "b.go" "B" .pub, bareFunction "a.go" "A" .pub]

/-- The text of that comment. -/
def twoDocs : List (ElementKey × String) := [(⟨.function, "m.B"⟩, "Makes a thing.")]

/-- What is said about the first of them. -/
def misnamedIssue : Issue :=
  ⟨.warn, "doc-name-prefix", "Doc comment for m.B should begin with \"B\"",
    bareFunction "b.go" "B" .pub⟩

/-- What is said about the second. -/
def undocumentedIssue : Issue :=
  ⟨.error, "doc-presence", "Missing doc comment: m.A", bareFunction "a.go" "A" .pub⟩

theorem run_of_perm_reversed :
    UsesBuiltin bothRules .builtin ∧ DistinctPlaces twoFunctions ∧
      ∃ r, (run bothRules .builtin ⟨twoFunctions, twoDocs⟩ "" .none false).1 = .ok r ∧
        (run bothRules .builtin ⟨twoFunctions.reverse, twoDocs⟩ "" .none false).1 = .ok r ∧
        r.issues = [undocumentedIssue, misnamedIssue] := by
  have hb : UsesBuiltin bothRules .builtin := fun _ _ _ hl => hl
  have hplaces : DistinctPlaces twoFunctions := by
    unfold DistinctPlaces
    decide
  let steps := stepsOf (outcomeOf .builtin ⟨twoFunctions, twoDocs⟩ false) bothRules.enabledRules
  have h : (run bothRules .builtin ⟨twoFunctions, twoDocs⟩ "" .none false).1 =
      .ok (resultOf bothRules ⟨twoFunctions, twoDocs⟩ "" steps) := rfl
  have h' := run_of_perm hb (List.reverse_perm twoFunctions).symm hplaces twoDocs "" "" .none .none
    false
  have hsorted : (resultOf bothRules ⟨twoFunctions, twoDocs⟩ "" steps).issues =
      [undocumentedIssue, misnamedIssue] := by
    rw [issues_of_run h]
    exact sortIssues_of_strict (by decide) (by decide)
  rw [h] at h'
  exact ⟨hb, hplaces, _, h, h', hsorted⟩

end DocAudit.Audit
