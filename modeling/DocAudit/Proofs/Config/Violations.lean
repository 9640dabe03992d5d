import DocAudit.Config.Validate
import DocAudit.Proofs.Config.Validate
import Mathlib.Data.List.Basic

/-!
# Every violated constraint is reported

The constraints on a configuration, said field by field and without the order in which they are
looked at, and what a check reports of them.

* `Config.Breaks` tells which fields of a configuration break a constraint, by their paths;
* `reported_faults_iff`: with distinct rule ids, the reported fields are those that break one;
* `reported_faults_of_repeated`: with a repeated rule id, no field of a rule entry is reported;
* `validate_reports_all_with_distinct_ids`: what that says about the answer of a check.
-/

namespace DocAudit

open Decimal

/-! ## 1. Words are told apart by their texts -/

theorem Kind.text_injective : Function.Injective Kind.text := fun ⟨_⟩ ⟨_⟩ => congrArg Kind.mk

theorem Visibility.text_injective : Function.Injective Visibility.text :=
  fun ⟨_⟩ ⟨_⟩ => congrArg Visibility.mk

theorem MemberKind.text_injective : Function.Injective MemberKind.text :=
  fun ⟨_⟩ ⟨_⟩ => congrArg MemberKind.mk

theorem AccessorKind.text_injective : Function.Injective AccessorKind.text :=
  fun ⟨_⟩ ⟨_⟩ => congrArg AccessorKind.mk

theorem Effect.text_injective : Function.Injective Effect.text :=
  fun ⟨_⟩ ⟨_⟩ => congrArg Effect.mk

namespace Config

/-! ## 2. The constraints -/

/-- **Fields of a selector that break a constraint**: every item is a known word. -/
inductive Selector.Breaks (s : Selector) (path : String) : String → Prop
  | targets {i k} : s.targets[i]? = some k → k ∉ Kind.all →
      s.Breaks path (itemPath (path ++ ".targets") i)
  | visibility {i v} : s.visibility[i]? = some v → v ∉ Visibility.all →
      s.Breaks path (itemPath (path ++ ".visibility") i)
  | memberKinds {i k} : s.memberKinds[i]? = some k → k ∉ MemberKind.all →
      s.Breaks path (itemPath (path ++ ".member_kinds") i)
  | accessorKinds {i k} : s.accessorKinds[i]? = some k → k ∉ AccessorKind.all →
      s.Breaks path (itemPath (path ++ ".accessor_kinds") i)

/-- **Fields of an override that break a constraint**: it has a severity of the scale. -/
inductive Override.Breaks (o : Override) (path : String) : String → Prop
  | condition {s p} : o.condition = some s → s.Breaks (path ++ ".match") p → o.Breaks path p
  | severity : o.severity ∉ Severity.scale → o.Breaks path (path ++ ".severity")

/-- **Fields of a policy that break a constraint**: it has a pattern and a known effect, and the
effect has what it acts with. -/
inductive Policy.Breaks (p : Policy) (path : String) : String → Prop
  | annotationPattern : p.annotationPattern = "" → p.Breaks path (path ++ ".annotation_pattern")
  | targets {i k} : p.targets[i]? = some k → k ∉ Kind.all →
      p.Breaks path (itemPath (path ++ ".targets") i)
  | effect : p.effect ∉ Effect.all → p.Breaks path (path ++ ".effect")
  | toSeverity : p.toSeverity.text ≠ "" → p.toSeverity ∉ Severity.scale →
      p.Breaks path (path ++ ".to_severity")
  | noSeverity : p.effect = .setSeverity → p.toSeverity.text = "" →
      p.Breaks path (path ++ ".to_severity")
  | noShift : p.effect = .shiftSeverity → p.shift = none → p.Breaks path (path ++ ".shift")

/-- **Fields of a rule entry that break a constraint**: it has an id, and its severity, if any, is
of the scale. -/
inductive RuleEntry.Breaks (r : RuleEntry) (path : String) : String → Prop
  | id : r.id = "" → r.Breaks path (path ++ ".id")
  | severity : r.severity.text ≠ "" → r.severity ∉ Severity.scale →
      r.Breaks path (path ++ ".severity")
  | condition {s p} : r.condition = some s → s.Breaks (path ++ ".when") p → r.Breaks path p

/-- **Fields of the telemetry that break a constraint**: a known level and format, an endpoint for a
trace, and a part of it that is sampled. -/
inductive Telemetry.Breaks (t : Telemetry) (path : String) : String → Prop
  | level : t.logging.level ∉ ["debug", "info", "warn", "error"] →
      t.Breaks path (path ++ ".logging.level")
  | format : t.logging.format ∉ ["json", "text", "console"] →
      t.Breaks path (path ++ ".logging.format")
  | endpoint : t.tracing.enabled = true → t.tracing.endpoint = "" →
      t.Breaks path (path ++ ".tracing.endpoint")
  | sampleRatio : ¬ (Binary64.le .zero t.tracing.sampleRatio = true ∧
      t.tracing.sampleRatio.le .one = true) → t.Breaks path (path ++ ".tracing.sample_ratio")

/-- **Fields of a configuration that break a constraint.** -/
inductive Breaks (c : Config) : String → Prop
  | projectRoot : c.projectRoot = "" → c.Breaks "project_root"
  | visibilities {i v} : c.scan.visibilities[i]? = some v → v ∉ Visibility.all →
      c.Breaks (itemPath "scan.visibilities" i)
  | byVisibility {v s} : (v, s) ∈ c.defaults.severity.byVisibility →
      v ∉ Visibility.all ∨ s ∉ Severity.scale →
      c.Breaks ("defaults.severity.by_visibility" ++ "[" ++ v.text ++ "]")
  | overrides {i} {o : Override} {p} : c.defaults.severity.overrides[i]? = some o →
      o.Breaks (itemPath "defaults.severity.overrides" i) p → c.Breaks p
  | policies {i} {q : Policy} {p} : c.defaults.policies[i]? = some q →
      q.Breaks (itemPath "defaults.annotation_policies" i) p → c.Breaks p
  | ruleIds : ¬ (c.rules.map (·.id)).Nodup → c.Breaks "rules"
  | rules {i} {r : RuleEntry} {p} : c.rules[i]? = some r → r.Breaks (itemPath "rules" i) p →
      c.Breaks p
  | failOn : c.failOn ∉ Severity.scale → c.Breaks "fail_on.severity"
  | telemetry {p} : c.telemetry.Breaks "telemetry" p → c.Breaks p

/-! ## 3. What a check of one field reports -/

/-- A field is among some errors. -/
def Reported (fs : List FieldError) (path : String) : Prop := ∃ f ∈ fs, f.field = path

section Reported

variable {fs gs : List FieldError} {path p value : String} {words : List String}

@[simp] theorem reported_nil : Reported [] p ↔ False := by
  simp [Reported]

@[simp] theorem reported_single {f : FieldError} : Reported [f] p ↔ p = f.field := by
  simp [Reported, eq_comm]

@[simp] theorem reported_append : Reported (fs ++ gs) p ↔ Reported fs p ∨ Reported gs p := by
  simp [Reported, or_and_right, exists_or]

theorem reported_flatMap {α : Type} {xs : List α} {f : α → List FieldError} :
    Reported (xs.flatMap f) p ↔ ∃ x ∈ xs, Reported (f x) p := by
  simp only [Reported, List.mem_flatMap]
  constructor
  · rintro ⟨e, ⟨x, hx, he⟩, rfl⟩
    exact ⟨x, hx, e, he, rfl⟩
  · rintro ⟨x, hx, e, he, rfl⟩
    exact ⟨e, ⟨x, hx, he⟩, rfl⟩

theorem eq_nil_iff_forall_not_reported : fs = [] ↔ ∀ p, ¬ Reported fs p := by
  rw [List.eq_nil_iff_forall_not_mem]
  exact ⟨fun h _ ⟨f, hf, _⟩ => h f hf, fun h f hf => h _ ⟨f, hf, rfl⟩⟩

@[simp] theorem reported_required : Reported (required path value) p ↔ value = "" ∧ p = path := by
  unfold required
  by_cases h : value = "" <;> simp [h]

@[simp] theorem reported_oneOf :
    Reported (oneOf path words value) p ↔ value ∉ words ∧ p = path := by
  unfold oneOf
  by_cases h : value ∈ words <;> simp [h]

theorem reported_requiredOneOf (h : "" ∉ words) :
    Reported (requiredOneOf path words value) p ↔ value ∉ words ∧ p = path := by
  unfold requiredOneOf
  by_cases hv : value = ""
  · simp [hv, h]
  · simp [hv]

@[simp] theorem reported_optionalOneOf :
    Reported (optionalOneOf path words value) p ↔ value ≠ "" ∧ value ∉ words ∧ p = path := by
  unfold optionalOneOf
  by_cases h : value = "" <;> simp [h]

/-- What is reported of a list is what is reported of its items. -/
theorem reported_eachItem {α : Type} {check : String → α → List FieldError} :
    ∀ {xs : List α} {k : Nat}, Reported (eachItem path check k xs) p ↔
      ∃ i x, xs[i]? = some x ∧ Reported (check (itemPath path (k + i)) x) p
  | [], k => by simp [eachItem]
  | x :: xs, k => by
      rw [eachItem, reported_append, reported_eachItem]
      constructor
      · rintro (h | ⟨i, y, hy, h⟩)
        · exact ⟨0, x, rfl, h⟩
        · exact ⟨i + 1, y, hy, by rwa [Nat.add_right_comm] at h⟩
      · rintro ⟨i, y, hy, h⟩
        cases i with
        | zero =>
          obtain rfl : x = y := by simpa using hy
          exact .inl h
        | succ i => exact .inr ⟨i, y, hy, by rwa [Nat.add_right_comm]⟩

/-- What is reported of a list of words are the items that are not known. -/
theorem reported_eachOneOf {α : Type} {text : α → String} (hinj : Function.Injective text)
    {known xs : List α} : Reported (eachOneOf path (known.map text) (xs.map text)) p ↔
      ∃ i x, xs[i]? = some x ∧ x ∉ known ∧ p = itemPath path i := by
  simp only [eachOneOf, reported_eachItem, reported_oneOf, List.getElem?_map, Nat.zero_add,
    Option.map_eq_some_iff]
  constructor
  · rintro ⟨i, _, ⟨x, hx, rfl⟩, hunknown, rfl⟩
    exact ⟨i, x, hx, fun h => hunknown (List.mem_map_of_mem h), rfl⟩
  · rintro ⟨i, x, hx, hunknown, rfl⟩
    exact ⟨i, _, ⟨x, hx, rfl⟩, fun h => hunknown ((List.mem_map_of_injective hinj).mp h), rfl⟩

end Reported

/-! ## 4. What is reported of a section -/

section Sections

variable {path p : String}

theorem Selector.reported_faults_iff {s : Selector} :
    Reported (s.faults path) p ↔ s.Breaks path p := by
  simp only [Selector.faults, reported_append, kindWords, visibilityWords, memberKindWords,
    accessorKindWords, reported_eachOneOf Kind.text_injective,
    reported_eachOneOf Visibility.text_injective, reported_eachOneOf MemberKind.text_injective,
    reported_eachOneOf AccessorKind.text_injective, or_assoc]
  constructor
  · rintro (⟨i, k, hk, hnot, rfl⟩ | ⟨i, v, hv, hnot, rfl⟩ | ⟨i, k, hk, hnot, rfl⟩ |
      ⟨i, k, hk, hnot, rfl⟩)
    · exact .targets hk hnot
    · exact .visibility hv hnot
    · exact .memberKinds hk hnot
    · exact .accessorKinds hk hnot
  · intro h
    cases h with
    | targets hk hnot => exact .inl ⟨_, _, hk, hnot, rfl⟩
    | visibility hv hnot => exact .inr (.inl ⟨_, _, hv, hnot, rfl⟩)
    | memberKinds hk hnot => exact .inr (.inr (.inl ⟨_, _, hk, hnot, rfl⟩))
    | accessorKinds hk hnot => exact .inr (.inr (.inr ⟨_, _, hk, hnot, rfl⟩))

theorem reported_selectorFaults {o : Option Selector} :
    Reported (selectorFaults path o) p ↔ ∃ s, o = some s ∧ s.Breaks path p := by
  cases o with
  | none => simp [selectorFaults]
  | some s => simp [selectorFaults, Selector.reported_faults_iff]

theorem reported_severity {s : Severity} :
    Reported (requiredOneOf path severityWords s.text) p ↔ s ∉ Severity.scale ∧ p = path := by
  rw [reported_requiredOneOf (by decide), mem_severityWords_iff]

theorem Override.reported_faults_iff {o : Override} :
    Reported (o.faults path) p ↔ o.Breaks path p := by
  simp only [Override.faults, reported_append, reported_selectorFaults, reported_severity]
  constructor
  · rintro (⟨s, hs, h⟩ | ⟨h, rfl⟩)
    · exact .condition hs h
    · exact .severity h
  · intro h
    cases h with
    | condition hs h => exact .inl ⟨_, hs, h⟩
    | severity h => exact .inr ⟨h, rfl⟩

theorem Policy.reported_payloadFaults {q : Policy} : Reported (q.payloadFaults path) p ↔
    (q.effect = .setSeverity ∧ q.toSeverity.text = "" ∧ p = path ++ ".to_severity") ∨
      (q.effect = .shiftSeverity ∧ q.shift = none ∧ p = path ++ ".shift") := by
  have hne : Effect.setSeverity ≠ .shiftSeverity := by decide
  unfold Policy.payloadFaults
  by_cases hset : q.effect = .setSeverity
  · by_cases hto : q.toSeverity.text = "" <;> simp [hset, hto, hne]
  · by_cases hshift : q.effect = .shiftSeverity
    · by_cases hnone : q.shift = none <;> simp [hshift, hnone, hne.symm]
    · simp [hset, hshift]

theorem Policy.reported_faults_iff {q : Policy} :
    Reported (q.faults path) p ↔ q.Breaks path p := by
  have heffect : Reported (requiredOneOf (path ++ ".effect") effectWords q.effect.text) p ↔
      q.effect ∉ Effect.all ∧ p = path ++ ".effect" := by
    rw [reported_requiredOneOf (by decide), effectWords,
      List.mem_map_of_injective Effect.text_injective]
  simp only [Policy.faults, reported_append, reported_required, kindWords,
    reported_eachOneOf Kind.text_injective, heffect, reported_optionalOneOf, mem_severityWords_iff,
    Policy.reported_payloadFaults, or_assoc]
  constructor
  · rintro (⟨h, rfl⟩ | ⟨i, k, hk, hnot, rfl⟩ | ⟨h, rfl⟩ | ⟨hne, h, rfl⟩ | ⟨hset, hto, rfl⟩ |
      ⟨hshift, hnone, rfl⟩)
    · exact .annotationPattern h
    · exact .targets hk hnot
    · exact .effect h
    · exact .toSeverity hne h
    · exact .noSeverity hset hto
    · exact .noShift hshift hnone
  · intro h
    cases h with
    | annotationPattern h => exact .inl ⟨h, rfl⟩
    | targets hk hnot => exact .inr (.inl ⟨_, _, hk, hnot, rfl⟩)
    | effect h => exact .inr (.inr (.inl ⟨h, rfl⟩))
    | toSeverity hne h => exact .inr (.inr (.inr (.inl ⟨hne, h, rfl⟩)))
    | noSeverity hset hto => exact .inr (.inr (.inr (.inr (.inl ⟨hset, hto, rfl⟩))))
    | noShift hshift hnone => exact .inr (.inr (.inr (.inr (.inr ⟨hshift, hnone, rfl⟩))))

theorem RuleEntry.reported_faults_iff {r : RuleEntry} :
    Reported (r.faults path) p ↔ r.Breaks path p := by
  simp only [RuleEntry.faults, reported_append, reported_required, reported_optionalOneOf,
    mem_severityWords_iff, reported_selectorFaults, or_assoc]
  constructor
  · rintro (⟨h, rfl⟩ | ⟨hne, h, rfl⟩ | ⟨s, hs, h⟩)
    · exact .id h
    · exact .severity hne h
    · exact .condition hs h
  · intro h
    cases h with
    | id h => exact .inl ⟨h, rfl⟩
    | severity hne h => exact .inr (.inl ⟨hne, h, rfl⟩)
    | condition hs h => exact .inr (.inr ⟨_, hs, h⟩)

theorem reported_ratioFaults {x : Binary64} : Reported (ratioFaults path x) p ↔
    ¬ (Binary64.le .zero x = true ∧ x.le .one = true) ∧ p = path := by
  unfold ratioFaults
  cases Binary64.le .zero x <;> cases x.le .one <;> simp

theorem Telemetry.reported_faults_iff {t : Telemetry} :
    Reported (t.faults path) p ↔ t.Breaks path p := by
  have hendpoint : Reported (if t.tracing.enabled && t.tracing.endpoint == "" then
      [⟨path ++ ".tracing.endpoint", "field is required when enabled is true"⟩] else []) p ↔
      t.tracing.enabled = true ∧ t.tracing.endpoint = "" ∧ p = path ++ ".tracing.endpoint" := by
    cases t.tracing.enabled <;> by_cases h : t.tracing.endpoint = "" <;> simp [h]
  simp only [Telemetry.faults, reported_append, reported_oneOf, hendpoint, reported_ratioFaults,
    or_assoc]
  constructor
  · rintro (⟨h, rfl⟩ | ⟨h, rfl⟩ | ⟨hon, h, rfl⟩ | ⟨h, rfl⟩)
    · exact .level h
    · exact .format h
    · exact .endpoint hon h
    · exact .sampleRatio h
  · intro h
    cases h with
    | level h => exact .inl ⟨h, rfl⟩
    | format h => exact .inr (.inl ⟨h, rfl⟩)
    | endpoint hon h => exact .inr (.inr (.inl ⟨hon, h, rfl⟩))
    | sampleRatio h => exact .inr (.inr (.inr ⟨h, rfl⟩))

theorem reported_visibilityFaults {es : List (Visibility × Severity)} :
    Reported (visibilityFaults path es) p ↔ ∃ v s, (v, s) ∈ es ∧
      (v ∉ Visibility.all ∨ s ∉ Severity.scale) ∧ p = path ++ "[" ++ v.text ++ "]" := by
  simp only [visibilityFaults, reported_flatMap, Prod.exists, reported_append, reported_oneOf,
    visibilityWords, List.mem_map_of_injective Visibility.text_injective, mem_severityWords_iff,
    or_and_right]

theorem isUnique_iff_nodup : ∀ {xs : List String}, isUnique xs = true ↔ xs.Nodup
  | [] => by simp [isUnique]
  | x :: xs => by
      have ih : isUnique xs = true ↔ xs.Nodup := isUnique_iff_nodup
      simp [isUnique, ih]

theorem reported_rulesFaults {rs : List RuleEntry} (h : (rs.map (·.id)).Nodup) :
    Reported (rulesFaults path rs) p ↔
      ∃ (i : Nat) (r : RuleEntry), rs[i]? = some r ∧ r.Breaks (itemPath path i) p := by
  rw [rulesFaults, if_pos (isUnique_iff_nodup.mpr h), reported_eachItem]
  simp only [Nat.zero_add, RuleEntry.reported_faults_iff]

/-- A repeated id is all that is reported of the rule entries. -/
theorem reported_rulesFaults_of_repeated {rs : List RuleEntry} (h : ¬ (rs.map (·.id)).Nodup) :
    Reported (rulesFaults path rs) p ↔ p = path := by
  rw [rulesFaults, if_neg (mt isUnique_iff_nodup.mp h), reported_single]

end Sections

/-! ## 5. What is reported of a configuration -/

section Whole

variable {c : Config} {p : String}

/-- The configuration without its rule entries. -/
def withoutRules (c : Config) : Config := { c with rules := [] }

/-- The rule entries are checked apart from everything else. -/
theorem reported_faults_split : Reported c.faults p ↔
    Reported c.withoutRules.faults p ∨ Reported (rulesFaults "rules" c.rules) p := by
  have hnone : Reported (rulesFaults "rules" []) p ↔ False := reported_nil
  simp only [Config.faults, withoutRules, reported_append, hnone, false_or, or_comm,
    or_left_comm]

/-- **With distinct rule ids, the reported fields are those that break a constraint.** -/
theorem reported_faults_iff (hids : (c.rules.map (·.id)).Nodup) :
    Reported c.faults p ↔ c.Breaks p := by
  simp only [Config.faults, reported_append, reported_required, visibilityWords,
    reported_eachOneOf Visibility.text_injective, reported_visibilityFaults, reported_eachItem,
    Nat.zero_add, Override.reported_faults_iff, Policy.reported_faults_iff,
    reported_rulesFaults hids, reported_severity, Telemetry.reported_faults_iff, or_assoc]
  constructor
  · rintro (⟨h, rfl⟩ | ⟨i, v, hv, hnot, rfl⟩ | ⟨v, s, hmem, hnot, rfl⟩ | ⟨i, o, ho, h⟩ |
      ⟨i, q, hq, h⟩ | ⟨i, r, hr, h⟩ | ⟨h, rfl⟩ | h)
    · exact .projectRoot h
    · exact .visibilities hv hnot
    · exact .byVisibility hmem hnot
    · exact .overrides ho h
    · exact .policies hq h
    · exact .rules hr h
    · exact .failOn h
    · exact .telemetry h
  · intro h
    cases h with
    | projectRoot h => exact .inl ⟨h, rfl⟩
    | visibilities hv hnot => exact .inr (.inl ⟨_, _, hv, hnot, rfl⟩)
    | byVisibility hmem hnot => exact .inr (.inr (.inl ⟨_, _, hmem, hnot, rfl⟩))
    | overrides ho h => exact .inr (.inr (.inr (.inl ⟨_, _, ho, h⟩)))
    | policies hq h => exact .inr (.inr (.inr (.inr (.inl ⟨_, _, hq, h⟩))))
    | ruleIds h => exact absurd hids h
    | rules hr h => exact .inr (.inr (.inr (.inr (.inr (.inl ⟨_, _, hr, h⟩)))))
    | failOn h => exact .inr (.inr (.inr (.inr (.inr (.inr (.inl ⟨h, rfl⟩))))))
    | telemetry h => exact .inr (.inr (.inr (.inr (.inr (.inr (.inr h))))))

/-- **With a repeated rule id, no field of a rule entry is reported.** -/
theorem reported_faults_of_repeated (hids : ¬ (c.rules.map (·.id)).Nodup) :
    Reported c.faults p ↔ c.withoutRules.Breaks p ∨ p = "rules" := by
  rw [reported_faults_split, reported_rulesFaults_of_repeated hids,
    reported_faults_iff (c := c.withoutRules) List.nodup_nil]

/-- A configuration has no faults just if no field of it breaks a constraint. -/
theorem faults_eq_nil_iff : c.faults = [] ↔ ∀ p, ¬ c.Breaks p := by
  rw [eq_nil_iff_forall_not_reported]
  -- A repeated id hides other fields, but it is a fault itself.
  by_cases hids : (c.rules.map (·.id)).Nodup
  · simp only [reported_faults_iff hids]
  · constructor
    · exact fun h => absurd ((reported_faults_of_repeated hids).mpr (.inr rfl)) (h "rules")
    · exact fun h => absurd (.ruleIds hids) (h "rules")

theorem faults_of_validate {e : Error} (h : validate (some c) = .error e) :
    e = .invalid c.faults := by
  unfold validate at h
  cases hfaults : c.faults with
  | nil =>
    simp only [hfaults] at h
    cases h
  | cons f fs =>
    simp only [hfaults] at h
    cases h
    rfl

end Whole

/-! ## 6. The answer of a check -/

/-- **A check reports every violated constraint at once, if the rule ids are distinct.**  It accepts
a configuration just if no field breaks a constraint.  Otherwise it reports fields: with distinct
rule ids all that break one and no other, and with a repeated id those outside of the rule entries,
and the list of entries as one field. -/
theorem validate_reports_all_with_distinct_ids (c : Config) :
    (validate (some c) = .ok () ↔ ∀ p, ¬ c.Breaks p) ∧
      ∀ e, validate (some c) = .error e → ∃ fs, e = .invalid fs ∧
        ((c.rules.map (·.id)).Nodup → ∀ p, Reported fs p ↔ c.Breaks p) ∧
        (¬ (c.rules.map (·.id)).Nodup →
          ∀ p, Reported fs p ↔ c.withoutRules.Breaks p ∨ p = "rules") :=
  ⟨(validate_eq_ok_iff c).trans faults_eq_nil_iff, fun _ he =>
    ⟨c.faults, faults_of_validate he, fun hids _ => reported_faults_iff hids,
      fun hids _ => reported_faults_of_repeated hids⟩⟩

/-- A configuration without a root, with a kind that there is not inside a condition, and with a
threshold off the scale. -/
def threefold : Config := { Config.default with
  projectRoot := ""
  rules := [RuleEntry.named "a", { RuleEntry.named "b" with
    condition := some { Selector.any with targets := [.type, ⟨"WIDGET"⟩] } }]
  failOn := ⟨"FATAL"⟩ }

/-- Three faults at different depths are reported together. -/
theorem validate_reports_all_with_distinct_ids_threefold :
    ∃ fs, validate (some threefold) = .error (.invalid fs) ∧ Reported fs "project_root" ∧
      Reported fs "rules[1].when.targets[1]" ∧ Reported fs "fail_on.severity" := by
  obtain ⟨hok, herror⟩ := validate_reports_all_with_distinct_ids threefold
  have hroot : threefold.Breaks "project_root" := .projectRoot rfl
  have htarget : threefold.Breaks "rules[1].when.targets[1]" :=
    .rules (i := 1) rfl (.condition rfl (.targets (i := 1) (k := ⟨"WIDGET"⟩) rfl (by decide)))
  have hfailOn : threefold.Breaks "fail_on.severity" := .failOn (by decide)
  cases h : validate (some threefold) with
  | ok u => exact absurd hroot (hok.mp h _)
  | error e =>
    obtain ⟨fs, rfl, hall, -⟩ := herror e h
    have hids : (threefold.rules.map (·.id)).Nodup := by decide
    exact ⟨fs, rfl, (hall hids _).mpr hroot, (hall hids _).mpr htarget, (hall hids _).mpr hfailOn⟩

/-- A configuration with a repeated rule id and a severity that there is not. -/
def repeatedId : Config := { Config.default with
  rules := [{ RuleEntry.named "a" with severity := ⟨"LOUD"⟩ }, RuleEntry.named "a"] }

/-- The severity breaks a constraint and is not reported. -/
theorem severity_hidden_by_repeated_id : repeatedId.Breaks "rules[0].severity" ∧
    ∃ fs, validate (some repeatedId) = .error (.invalid fs) ∧
      ¬ Reported fs "rules[0].severity" := by
  have hfaults : repeatedId.faults = [⟨"rules", "duplicate id values are not allowed"⟩] := by
    decide +kernel
  have hsource : repeatedId.Breaks "rules[0].severity" :=
    .rules (i := 0) rfl (.severity (by decide) (by decide))
  refine ⟨hsource, [⟨"rules", "duplicate id values are not allowed"⟩], ?_, ?_⟩
  · rw [validate, hfaults]
  · rw [reported_single]
    decide

end Config

end DocAudit
