import Mathlib.Data.List.Induction
import Mathlib.Data.List.Nodup

/-!
# Distinct values

A list without repetitions keeps each of its values where it first stands.

* `eraseDups_concat`: one more value stands at the end if it is new, and else changes nothing;
* `nodup_eraseDups` and `filter_eraseDups` follow by adding one value after the other.
-/

namespace DocAudit

variable {α : Type} [DecidableEq α]

theorem eraseDups_concat (l : List α) (a : α) :
    (l ++ [a]).eraseDups = if a ∈ l then l.eraseDups else l.eraseDups ++ [a] := by
  rw [List.eraseDups_append]
  split
  · rename_i hmem
    have hold : [a].removeAll l = [] := by
      rw [List.removeAll, List.filter_eq_nil_iff]
      simpa using hmem
    rw [hold]
    exact List.append_nil _
  · rename_i hnew
    have hself : [a].removeAll l = [a] := by
      rw [List.removeAll, List.filter_eq_self]
      simpa using hnew
    rw [hself]
    rfl

theorem nodup_eraseDups (l : List α) : l.eraseDups.Nodup := by
  induction l using List.reverseRecOn with
  | nil => exact List.nodup_nil
  | append_singleton l a ih =>
    rw [eraseDups_concat]
    split
    · exact ih
    · rename_i hnew
      have hnew' : a ∉ l.eraseDups := by rwa [List.mem_eraseDups]
      exact List.Nodup.append ih (List.nodup_singleton a) (by simpa using hnew')

/-- It does not matter whether repetitions or values are left out first. -/
theorem filter_eraseDups (p : α → Bool) (l : List α) :
    l.eraseDups.filter p = (l.filter p).eraseDups := by
  induction l using List.reverseRecOn with
  | nil => rfl
  | append_singleton l a ih =>
    rw [eraseDups_concat, List.filter_append]
    cases hp : p a with
    | true =>
      have hmem : a ∈ l.filter p ↔ a ∈ l := by simp [hp]
      have hone : [a].filter p = [a] := by simp [hp]
      rw [hone, eraseDups_concat, ← ih]
      simp only [hmem]
      split
      · rfl
      · rw [List.filter_append, hone]
    | false =>
      have hnone : [a].filter p = [] := by simp [hp]
      rw [hnone, List.append_nil, ← ih]
      split
      · rfl
      · rw [List.filter_append, hnone, List.append_nil]

end DocAudit
