import DocAudit.Error
import Mathlib.Logic.Relation
import Mathlib.Tactic.SplitIfs

/-!
# What occurs in an error

An error wraps its causes, these wrap theirs, and so on: it contains what can be reached this way.
The exit status is read off what an error contains and does not depend on where in the tree it is.

* `mem_nodes_iff`: the nodes of an error are what it contains;
* `exitCode_of_contents`: the exit status by what an error contains; what an error is wrapped in
  leaves its status as it is, and of errors joined together the gravest decides.
-/

namespace DocAudit

namespace Error

/-! ## 1. Causes -/

/-- **One error wraps another**: the second is the cause of the first, or one of its causes.  An
error of which only the text is kept wraps nothing. -/
inductive Wraps : Error → Error → Prop
  | context (text : String) (c : Error) : Wraps (.context text c) c
  | joined {cs : List Error} {c : Error} (h : c ∈ cs) : Wraps (.joined cs) c
  | setting (field message : String) (c : Error) : Wraps (.setting field message (some c)) c
  | command (name : String) (c : Error) : Wraps (.command name c) c
  | uncompiled {ps : List Problem} {p : Problem} (h : p ∈ ps) : Wraps (.uncompiled ps) p.cause
  | pattern (pattern : String) (index : Int) (c : Error) : Wraps (.pattern pattern index c) c
  | scan (root : String) (c : Error) : Wraps (.scan root c) c
  | rule (id : String) (c : Error) : Wraps (.rule id c) c

/-- **An error contains another**: itself, its causes, their causes and so on. -/
def Contains : Error → Error → Prop := Relation.ReflTransGen Wraps

variable {e c x : Error}

theorem sizeOf_cause_lt (p : Problem) : sizeOf p.cause < sizeOf p := by
  cases p
  simp only [Problem.cause, Problem.mk.sizeOf_spec]
  omega

/-- A cause is smaller than what wraps it. -/
theorem Wraps.sizeOf_lt (h : Wraps e c) : sizeOf c < sizeOf e := by
  cases h with
  | joined h =>
    have hlt := List.sizeOf_lt_of_mem h
    simp only [joined.sizeOf_spec]
    omega
  | @uncompiled ps p h =>
    have hlt := List.sizeOf_lt_of_mem h
    have hcause := sizeOf_cause_lt p
    simp only [uncompiled.sizeOf_spec]
    omega
  | setting field message c =>
    simp only [setting.sizeOf_spec, Option.some.sizeOf_spec]
    omega
  | _ =>
    simp only [context.sizeOf_spec, command.sizeOf_spec, pattern.sizeOf_spec, scan.sizeOf_spec,
      rule.sizeOf_spec]
    omega

/-! ## 2. Contents -/

theorem mem_nodesOfList_iff {cs : List Error} : x ∈ nodesOfList cs ↔ ∃ c ∈ cs, x ∈ c.nodes := by
  induction cs with
  | nil => simp [nodesOfList]
  | cons c cs ih => simp [nodesOfList, ih]

theorem mem_nodesOfProblems_iff {ps : List Problem} :
    x ∈ nodesOfProblems ps ↔ ∃ p ∈ ps, x ∈ p.cause.nodes := by
  induction ps with
  | nil => simp [nodesOfProblems]
  | cons p ps ih =>
    cases p
    simp [nodesOfProblems, ih, Problem.cause]

theorem mem_nodes_self (e : Error) : e ∈ e.nodes := by
  cases e <;> simp [nodes]

theorem mem_nodes_of_wraps (h : Wraps e c) (hx : x ∈ c.nodes) : x ∈ e.nodes := by
  cases h with
  | joined h => exact List.mem_cons_of_mem _ (mem_nodesOfList_iff.mpr ⟨c, h, hx⟩)
  | uncompiled h => exact List.mem_cons_of_mem _ (mem_nodesOfProblems_iff.mpr ⟨_, h, hx⟩)
  | _ => exact List.mem_cons_of_mem _ hx

/-- A node is the error itself or a node of one of its causes. -/
theorem eq_or_of_mem_nodes (h : x ∈ e.nodes) : x = e ∨ ∃ c, Wraps e c ∧ x ∈ c.nodes := by
  cases e with
  | context text c => exact (List.mem_cons.mp h).imp_right fun hx => ⟨c, .context text c, hx⟩
  | joined cs =>
    refine (List.mem_cons.mp h).imp_right fun hx => ?_
    obtain ⟨c, hc, hx⟩ := mem_nodesOfList_iff.mp hx
    exact ⟨c, .joined hc, hx⟩
  | setting field message cause =>
    refine (List.mem_cons.mp h).imp_right fun hx => ?_
    cases cause with
    | none => cases hx
    | some c => exact ⟨c, .setting field message c, hx⟩
  | command name c => exact (List.mem_cons.mp h).imp_right fun hx => ⟨c, .command name c, hx⟩
  | uncompiled ps =>
    refine (List.mem_cons.mp h).imp_right fun hx => ?_
    obtain ⟨p, hp, hx⟩ := mem_nodesOfProblems_iff.mp hx
    exact ⟨p.cause, .uncompiled hp, hx⟩
  | pattern pattern index c =>
    exact (List.mem_cons.mp h).imp_right fun hx => ⟨c, .pattern pattern index c, hx⟩
  | scan root c => exact (List.mem_cons.mp h).imp_right fun hx => ⟨c, .scan root c, hx⟩
  | rule id c => exact (List.mem_cons.mp h).imp_right fun hx => ⟨c, .rule id c, hx⟩
  | _ => exact .inl (List.mem_singleton.mp h)

theorem contains_of_mem_nodes {e : Error} (h : x ∈ e.nodes) : Contains e x := by
  rcases eq_or_of_mem_nodes h with rfl | ⟨c, hc, hx⟩
  · exact .refl
  · have hlt := hc.sizeOf_lt
    exact .head hc (contains_of_mem_nodes hx)
termination_by sizeOf e

/-- **The nodes of an error are what it contains.** -/
theorem mem_nodes_iff : x ∈ e.nodes ↔ Contains e x := by
  refine ⟨contains_of_mem_nodes, fun h => ?_⟩
  induction h using Relation.ReflTransGen.head_induction_on with
  | refl => exact mem_nodes_self x
  | head h _ ih => exact mem_nodes_of_wraps h ih

/-- An error has a sort if it contains an error of that sort. -/
theorem has_iff {p : Error → Bool} : e.has p = true ↔ ∃ x, Contains e x ∧ p x = true := by
  simp only [has, List.any_eq_true, mem_nodes_iff]

/-! ## 3. The sorts that decide -/

/-- A run whose issues reach their threshold occurs in an error. -/
def HasThreshold (e : Error) : Prop := ∃ severity issues, Contains e (.threshold severity issues)

/-- A setting, a configuration or a pattern of it that cannot be used occurs in an error. -/
def HasConfig (e : Error) : Prop :=
  (∃ field message cause, Contains e (.setting field message cause)) ∨
    (∃ fields, Contains e (.invalid fields)) ∨ ∃ problems, Contains e (.uncompiled problems)

/-- A project that cannot be scanned occurs in an error. -/
def HasScan (e : Error) : Prop := ∃ root cause, Contains e (.scan root cause)

/-- A rule that failed or does not exist occurs in an error. -/
def HasRule (e : Error) : Prop :=
  (∃ id cause, Contains e (.rule id cause)) ∨ ∃ id known, Contains e (.unknownRule id known)

theorem has_threshold_iff : e.has isThreshold = true ↔ HasThreshold e := by
  rw [has_iff]
  constructor
  · rintro ⟨x, hx, hp⟩
    cases x with
    | threshold severity issues => exact ⟨severity, issues, hx⟩
    | _ => cases hp
  · rintro ⟨severity, issues, hx⟩
    exact ⟨_, hx, rfl⟩

theorem has_config_iff : e.has isConfig = true ↔ HasConfig e := by
  rw [has_iff]
  constructor
  · rintro ⟨x, hx, hp⟩
    cases x with
    | setting field message cause => exact .inl ⟨field, message, cause, hx⟩
    | invalid fields => exact .inr (.inl ⟨fields, hx⟩)
    | uncompiled problems => exact .inr (.inr ⟨problems, hx⟩)
    | _ => cases hp
  · rintro (⟨field, message, cause, hx⟩ | ⟨fields, hx⟩ | ⟨problems, hx⟩) <;> exact ⟨_, hx, rfl⟩

theorem has_scan_iff : e.has isScan = true ↔ HasScan e := by
  rw [has_iff]
  constructor
  · rintro ⟨x, hx, hp⟩
    cases x with
    | scan root cause => exact ⟨root, cause, hx⟩
    | _ => cases hp
  · rintro ⟨root, cause, hx⟩
    exact ⟨_, hx, rfl⟩

theorem has_rule_iff : e.has isRule = true ↔ HasRule e := by
  rw [has_iff]
  constructor
  · rintro ⟨x, hx, hp⟩
    cases x with
    | rule id cause => exact .inl ⟨id, cause, hx⟩
    | unknownRule id known => exact .inr ⟨id, known, hx⟩
    | _ => cases hp
  · rintro (⟨id, cause, hx⟩ | ⟨id, known, hx⟩) <;> exact ⟨_, hx, rfl⟩

/-! ## 4. Wrapping and joining -/

/-- **An error wrapped** in commands that failed and in texts before it, any number of them. -/
inductive Wrapped (e : Error) : Error → Prop
  | self : Wrapped e e
  | context (text : String) {c : Error} (h : Wrapped e c) : Wrapped e (.context text c)
  | command (name : String) {c : Error} (h : Wrapped e c) : Wrapped e (.command name c)

theorem exitCode_of_wrapped (h : Wrapped e c) : c.exitCode = e.exitCode := by
  induction h with
  | self => rfl
  | context text h ih =>
    rw [← ih]
    rfl
  | command name h ih =>
    rw [← ih]
    rfl

/-- How grave a status is: of several errors the gravest decides. -/
def gravity : (status : Nat) → Nat
  | 40 => 4
  | 10 => 3
  | 20 => 2
  | 30 => 1
  | _ => 0

/-- The sorts that decide, the gravest first. -/
def gravest : List (Error → Bool) := [isThreshold, isConfig, isScan, isRule]

theorem exitCode_cases (e : Error) :
    e.exitCode = 40 ∨ e.exitCode = 10 ∨ e.exitCode = 20 ∨ e.exitCode = 30 ∨ e.exitCode = 1 := by
  unfold exitCode
  split_ifs <;> simp

/-- A status is graver than `k` if one of the gravest sorts, all but the last `k`, occurs. -/
theorem lt_gravity_iff {k : Nat} (hk : k < 4) :
    k < gravity e.exitCode ↔ ∃ p ∈ gravest.take (4 - k), e.has p = true := by
  unfold exitCode
  obtain rfl | rfl | rfl | rfl : k = 0 ∨ k = 1 ∨ k = 2 ∨ k = 3 := by omega
  all_goals
    simp only [gravest, Nat.sub_zero, Nat.reduceSub, List.take_succ_cons, List.take_zero,
      List.mem_cons, List.not_mem_nil, or_false, exists_eq_or_imp, exists_eq_left]
    split_ifs <;> simp_all [gravity]

theorem gravity_lt (e : Error) : gravity e.exitCode < 5 := by
  rcases e.exitCode_cases with h | h | h | h | h <;> rw [h] <;> decide

theorem exitCode_of_gravity (h : gravity e.exitCode = gravity c.exitCode) :
    e.exitCode = c.exitCode := by
  rcases e.exitCode_cases with he | he | he | he | he <;>
    rcases c.exitCode_cases with hc | hc | hc | hc | hc <;>
    rw [he, hc] at h ⊢ <;> revert h <;> decide

/-- A sort that joining does not add occurs in the errors joined. -/
theorem has_joined_iff {cs : List Error} {p : Error → Bool} (hp : p (.joined cs) = false) :
    (joined cs).has p = true ↔ ∃ c ∈ cs, c.has p = true := by
  simp only [has, nodes, List.any_cons, hp, Bool.false_or, List.any_eq_true, mem_nodesOfList_iff]
  exact ⟨fun ⟨x, ⟨c, hc, hx⟩, hpx⟩ => ⟨c, hc, x, hx, hpx⟩,
    fun ⟨c, hc, x, hx, hpx⟩ => ⟨x, ⟨c, hc, hx⟩, hpx⟩⟩

theorem lt_gravity_joined_iff {cs : List Error} {k : Nat} (hk : k < 4) :
    k < gravity (joined cs).exitCode ↔ ∃ c ∈ cs, k < gravity c.exitCode := by
  have hplain : ∀ p ∈ gravest, p (.joined cs) = false := by
    simp [gravest, isThreshold, isConfig, isScan, isRule]
  simp only [lt_gravity_iff hk]
  constructor
  · rintro ⟨p, hp, hhas⟩
    obtain ⟨c, hc, hhas⟩ := (has_joined_iff (hplain p (List.mem_of_mem_take hp))).mp hhas
    exact ⟨c, hc, p, hp, hhas⟩
  · rintro ⟨c, hc, p, hp, hhas⟩
    exact ⟨p, hp, (has_joined_iff (hplain p (List.mem_of_mem_take hp))).mpr ⟨c, hc, hhas⟩⟩

/-- No error is graver than a joined one that contains it. -/
theorem gravity_le_joined {cs : List Error} (h : c ∈ cs) :
    gravity c.exitCode ≤ gravity (joined cs).exitCode := by
  refine Nat.le_of_not_lt fun hlt => ?_
  have hk : gravity (joined cs).exitCode < 4 := by
    have hc := gravity_lt c
    omega
  exact Nat.lt_irrefl _ ((lt_gravity_joined_iff hk).mpr ⟨c, h, hlt⟩)

/-- The gravest of the errors joined gives the status. -/
theorem exists_exitCode_joined (c : Error) (cs : List Error) :
    ∃ d ∈ c :: cs, (joined (c :: cs)).exitCode = d.exitCode := by
  cases hg : gravity (joined (c :: cs)).exitCode with
  | zero =>
    refine ⟨c, List.mem_cons_self, exitCode_of_gravity ?_⟩
    have hle : gravity c.exitCode ≤ gravity (joined (c :: cs)).exitCode :=
      gravity_le_joined List.mem_cons_self
    omega
  | succ k =>
    have hk : k < 4 := by
      have hlt := gravity_lt (joined (c :: cs))
      omega
    have hjoined : k < gravity (joined (c :: cs)).exitCode := by omega
    obtain ⟨d, hd, hlt⟩ := (lt_gravity_joined_iff hk).mp hjoined
    refine ⟨d, hd, exitCode_of_gravity ?_⟩
    have hle := gravity_le_joined hd
    omega

/-! ## 5. The exit status -/

open scoped Classical in
/-- **The exit status by what an error contains**: a run that reached its threshold, else trouble
with the configuration, else with a scan, else with a rule.  Commands and texts around an error
leave its status as it is, and of errors joined together the gravest gives the status. -/
theorem exitCode_of_contents (e : Error) :
    (exitCodeOf (some e) =
      if HasThreshold e then 40
      else if HasConfig e then 10
      else if HasScan e then 20
      else if HasRule e then 30
      else 1) ∧
    (∀ w, Wrapped e w → exitCodeOf (some w) = exitCodeOf (some e)) ∧
    ∀ es, ∃ d ∈ e :: es, exitCodeOf (some (joined (e :: es))) = exitCodeOf (some d) ∧
      ∀ c ∈ e :: es, gravity (exitCodeOf (some c)) ≤ gravity (exitCodeOf (some d)) := by
  refine ⟨?_, fun w hw => exitCode_of_wrapped hw, fun es => ?_⟩
  · simp only [exitCodeOf, exitCode, ← has_threshold_iff, ← has_config_iff, ← has_scan_iff,
      ← has_rule_iff]
  · obtain ⟨d, hd, hcode⟩ := exists_exitCode_joined e es
    refine ⟨d, hd, hcode, fun c hc => ?_⟩
    show gravity c.exitCode ≤ gravity d.exitCode
    rw [← hcode]
    exact gravity_le_joined hc

/-- A failed rule joined with a configuration of which a pattern does not compile. -/
def ruleAndPattern : Error :=
  .joined [.rule "r" (.plain "boom"),
    .context "load" (.uncompiled [.mk "p" "(" (.scan "." (.plain "gone"))])]

theorem exitCode_of_contents_ruleAndPattern :
    exitCodeOf (some ruleAndPattern) = 10 ∧
      exitCodeOf (some (.command "scan" (.context "run" ruleAndPattern))) = 10 ∧
      ∃ d ∈ [ruleAndPattern, .plain "boom"],
        exitCodeOf (some (.joined [ruleAndPattern, .plain "boom"])) = exitCodeOf (some d) := by
  obtain ⟨hcode, hwrapped, hjoined⟩ := exitCode_of_contents ruleAndPattern
  have hthreshold : ¬ HasThreshold ruleAndPattern := by
    rw [← has_threshold_iff]
    decide
  have hconfig : HasConfig ruleAndPattern := has_config_iff.mp (by decide)
  rw [if_neg hthreshold, if_pos hconfig] at hcode
  have hcommand := hwrapped _ (.command "scan" (.context "run" .self))
  obtain ⟨d, hd, hstatus, -⟩ := hjoined [.plain "boom"]
  exact ⟨hcode, hcommand.trans hcode, d, hd, hstatus⟩

end Error
end DocAudit
