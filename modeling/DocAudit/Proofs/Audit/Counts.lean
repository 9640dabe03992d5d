import DocAudit.Proofs.Audit.Result
import DocAudit.Proofs.Distinct

/-!
# Counting issues against a threshold

Issues are counted by severity, one after the other, and a run fails if one of them reaches the
threshold.

* `bySeverity_eq_tally`: the counts by severity are what a tally of the issues comes to;
* `sum_counts_where` and `atLeast_eq_countSum`: the issues that reach a threshold are counted under
  the severities that reach it;
* `fails_iff`, `fails_iff_atLeast_pos` and `fails_of_le`: when a run fails, and that it then fails
  at every lower threshold.
-/

namespace DocAudit.Audit

variable {issues : List Issue} {r : Result} {s t : Severity}

/-! ## 1. A tally -/

/-- Some counts with one more for a severity; one that has not been counted comes to the end. -/
def countOne (s : Severity) : List (Severity × Nat) → List (Severity × Nat)
  | [] => [(s, 1)]
  | (s', n) :: counts => if s' = s then (s', n + 1) :: counts else (s', n) :: countOne s counts

/-- **A tally of issues by severity**: every severity of the scale starts from zero, and each issue
counts one. -/
def tally (issues : List Issue) : List (Severity × Nat) :=
  issues.foldl (fun counts i => countOne i.severity counts) (Severity.scale.map (·, 0))

/-- What some counts come to. -/
def countSum (counts : List (Severity × Nat)) : Nat := (counts.map (·.2)).sum

/-- The counts of the severities that reach a threshold. -/
def reaching (t : Severity) (counts : List (Severity × Nat)) : List (Severity × Nat) :=
  counts.filter fun x => decide (t.rank ≤ x.1.rank)

theorem countOf_concat (issues : List Issue) (i : Issue) (s : Severity) :
    countOf (issues ++ [i]) s = countOf issues s + if i.severity = s then 1 else 0 := by
  unfold countOf
  rw [List.filter_append, List.length_append]
  by_cases hs : i.severity = s <;> simp [hs]

/-- One more issue raises the count of its severity, which may be a new one. -/
theorem countOne_map (issues : List Issue) (i : Issue) {ss : List Severity} (hss : ss.Nodup)
    (hzero : i.severity ∉ ss → countOf issues i.severity = 0) :
    countOne i.severity (ss.map fun s => (s, countOf issues s)) =
      (if i.severity ∈ ss then ss else ss ++ [i.severity]).map fun s =>
        (s, countOf (issues ++ [i]) s) := by
  induction ss with
  | nil =>
    have hone : countOf (issues ++ [i]) i.severity = 1 := by
      rw [countOf_concat, hzero List.not_mem_nil, if_pos rfl]
    simp [countOne, hone]
  | cons s ss ih =>
    obtain ⟨hs, hss⟩ := List.nodup_cons.mp hss
    by_cases h : s = i.severity
    · have hrest : ss.map (fun s' => (s', countOf issues s')) =
          ss.map fun s' => (s', countOf (issues ++ [i]) s') := by
        refine List.map_congr_left fun s' hs' => ?_
        have hne : i.severity ≠ s' := fun heq => hs (h ▸ heq ▸ hs')
        rw [countOf_concat, if_neg hne, Nat.add_zero]
      have hmem : i.severity ∈ s :: ss := by simp [h]
      rw [List.map_cons, countOne, if_pos h, if_pos hmem, List.map_cons, countOf_concat,
        if_pos h.symm, hrest]
    · have hrest := ih hss fun hnew => hzero (by simp [hnew, Ne.symm h])
      have hsame : countOf (issues ++ [i]) s = countOf issues s := by
        rw [countOf_concat, if_neg (Ne.symm h), Nat.add_zero]
      have hmem : i.severity ∈ s :: ss ↔ i.severity ∈ ss := by simp [Ne.symm h]
      rw [List.map_cons, countOne, if_neg h, hrest, ← hsame]
      simp only [hmem]
      split <;> rfl

/-- **The counts by severity are what a tally comes to.** -/
theorem bySeverity_eq_tally (issues : List Issue) : bySeverity issues = tally issues := by
  induction issues using List.reverseRecOn with
  | nil => rfl
  | append_singleton issues i ih =>
    have hstep : tally (issues ++ [i]) = countOne i.severity (tally issues) := by simp [tally]
    have hzero : i.severity ∉ (Severity.scale ++ issues.map (·.severity)).eraseDups →
        countOf issues i.severity = 0 := by
      intro hnew
      rw [countOf, List.length_eq_zero_iff, List.filter_eq_nil_iff]
      intro i' hi' heq
      rw [List.mem_eraseDups] at hnew
      exact hnew (List.mem_append_right _ (beq_iff_eq.mp heq ▸ List.mem_map_of_mem hi'))
    have hcount := countOne_map issues i (nodup_eraseDups _) hzero
    rw [hstep, ← ih]
    unfold bySeverity
    rw [hcount, List.map_append, List.map_singleton, ← List.append_assoc, eraseDups_concat]
    simp only [List.mem_eraseDups]

/-! ## 2. Counts against a threshold -/

/-- The counts of some severities are the numbers of their issues. -/
theorem sum_counts_where (issues : List Issue) (p : Severity → Bool) :
    (((bySeverity issues).filter fun x => p x.1).map (·.2)).sum =
      (issues.filter fun i => p i.severity).length := by
  have hcounts : ((bySeverity issues).filter fun x => p x.1).map (·.2) =
      ((Severity.scale ++ issues.map (·.severity)).filter p).eraseDups.map (countOf issues) := by
    rw [bySeverity, List.filter_map, List.map_map, ← filter_eraseDups]
    rfl
  have hmem : (issues.filter fun i =>
      ((Severity.scale ++ issues.map (·.severity)).filter p).contains i.severity) =
      issues.filter fun i => p i.severity := by
    refine List.filter_congr fun i hi => ?_
    have hs : i.severity ∈ Severity.scale ++ issues.map (·.severity) :=
      List.mem_append_right _ (List.mem_map_of_mem hi)
    cases hp : p i.severity with
    | true => exact List.contains_iff_mem.mpr (List.mem_filter.mpr ⟨hs, hp⟩)
    | false => simp [hp]
  rw [hcounts, sum_counts, hmem]

theorem atLeast_iff : s.atLeast t = true ↔ t.rank ≤ s.rank := decide_eq_true_iff

/-- **The issues that reach a threshold are counted under the severities that reach it.** -/
theorem atLeast_eq_countSum (r : Result) (t : Severity) :
    r.atLeast t = countSum (reaching t (tally r.issues)) := by
  rw [← bySeverity_eq_tally]
  exact (sum_counts_where r.issues fun s => decide (t.rank ≤ s.rank)).symm

theorem countSum_tally (issues : List Issue) : countSum (tally issues) = issues.length := by
  rw [countSum, ← bySeverity_eq_tally, sum_bySeverity]

theorem fails_iff : r.fails t = true ↔ ∃ i ∈ r.issues, t.rank ≤ i.severity.rank := by
  unfold Result.fails Policy.shouldFail
  simp only [List.any_eq_true, atLeast_iff]

/-- A run fails if some issue is counted as reaching the threshold. -/
theorem fails_iff_atLeast_pos : r.fails t = true ↔ 1 ≤ r.atLeast t := by
  rw [fails_iff, Result.atLeast, Nat.one_le_iff_ne_zero, Ne, List.length_eq_zero_iff,
    List.filter_eq_nil_iff]
  simp only [atLeast_iff, not_forall, not_not, exists_prop]

/-- **A run that fails at a threshold fails at every lower one.** -/
theorem fails_of_le {high low : Severity} (hle : low.rank ≤ high.rank)
    (h : r.fails high = true) : r.fails low = true := by
  obtain ⟨i, hi, hreach⟩ := fails_iff.mp h
  exact fails_iff.mpr ⟨i, hi, Int64.le_trans hle hreach⟩

end DocAudit.Audit
