import DocAudit.Proofs.Distinct

/-!
# Grouping by a label

Values that come one after the other are put to the group with their label; a new label starts a
group at the end.

* `foldl_groupInto`: there is one group for each label, in the order of appearance, with all values
  of the label as they came.
-/

namespace DocAudit

variable {α : Type} {label : α → String}

/-- A value put to the group with its label. -/
def groupInto (label : α → String) (a : α) : List (String × List α) → List (String × List α)
  | [] => [(label a, [a])]
  | (l, as) :: gs =>
    if l == label a then (l, as ++ [a]) :: gs else (l, as) :: groupInto label a gs

/-- The groups of some values under some labels. -/
def groupsOf (label : α → String) (as : List α) (ls : List String) : List (String × List α) :=
  ls.map fun l => (l, as.filter (label · == l))

theorem groupInto_groupsOf (a : α) (as : List α) : ∀ {ls : List String}, ls.Nodup →
    groupInto label a (groupsOf label as ls) =
      if label a ∈ ls then groupsOf label (as ++ [a]) ls
      else groupsOf label as ls ++ [(label a, [a])]
  | [], _ => rfl
  | l :: ls, h => by
      obtain ⟨hl, hls⟩ := List.nodup_cons.mp h
      have ih := groupInto_groupsOf a as hls
      unfold groupsOf at ih ⊢
      by_cases ha : l = label a
      · have hrest : ∀ l' ∈ ls, (as ++ [a]).filter (label · == l') =
            as.filter (label · == l') := by
          intro l' hl'
          have hne : ¬ label a = l' := fun heq => hl (ha ▸ heq ▸ hl')
          simp [hne]
        subst ha
        simp only [List.map_cons, groupInto, beq_self_eq_true, if_true, List.mem_cons, true_or,
          List.cons.injEq, Prod.mk.injEq, true_and]
        refine ⟨by simp, List.map_congr_left fun l' hl' => ?_⟩
        rw [hrest l' hl']
      · have hne : ¬ label a = l := fun heq => ha heq.symm
        simp only [List.map_cons, groupInto, beq_iff_eq, ha, if_false, ih, List.mem_cons, hne,
          false_or]
        split <;> simp [hne]

/-- **There is one group for each label**, in the order of appearance. -/
theorem foldl_groupInto (as : List α) :
    as.foldl (fun gs a => groupInto label a gs) [] =
      groupsOf label as (as.map label).eraseDups := by
  induction as using List.reverseRecOn with
  | nil => rfl
  | append_singleton as a ih =>
    have hdistinct : (as.map label).eraseDups.Nodup := nodup_eraseDups _
    have hmem : label a ∈ (as.map label).eraseDups ↔ label a ∈ as.map label := List.mem_eraseDups
    rw [List.foldl_append, ih, List.foldl_cons, List.foldl_nil, groupInto_groupsOf a as hdistinct,
      List.map_append, List.map_singleton, eraseDups_concat]
    simp only [hmem]
    split
    · rfl
    · rename_i hnew
      have hnone : as.filter (label · == label a) = [] := by
        rw [List.filter_eq_nil_iff]
        intro b hb heq
        exact hnew (beq_iff_eq.mp heq ▸ List.mem_map_of_mem hb)
      unfold groupsOf
      rw [List.map_append]
      congr 1
      · refine List.map_congr_left fun l hl => ?_
        have hne : ¬ label a = l := fun heq => hnew (heq ▸ List.mem_eraseDups.mp hl)
        simp [hne]
      · simp [hnone]

end DocAudit
