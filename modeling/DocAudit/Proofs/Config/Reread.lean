import DocAudit.Config.Load
import DocAudit.Proofs.Except
import DocAudit.Proofs.Yaml.Decode

/-!
# Reading back what has been written

The document of a configuration describes the configuration again, in all but two things.  A filter
without patterns is not written, though a selector that has one asks for an annotation; and a
visibility without a severity gets back the one that it has by default, because a dictionary is
decoded over the one that is there.
-/

namespace DocAudit.Config

open Yaml

/-! ## 1. Parts of a configuration -/

theorem reads_words {α : Type} {type itemType : String} (mk : String → α) (text : α → String)
    (hmk : ∀ a, mk (text a) = a) (as : List α) (fresh : α) (old : List α) :
    Reads (listSlot type (wordSlot itemType mk) fresh) (textNodes (as.map text)) old as := by
  have hitems : ∀ s ∈ as.map text, Reads (wordSlot itemType mk) (.ofText s) fresh (mk s) :=
    fun s _ => reads_word itemType mk s fresh
  have hsame : (as.map text).map mk = as := by
    simp [Function.comp_def, hmk]
  have hlist : Reads (listSlot type (wordSlot itemType mk) fresh) _ old _ := reads_list hitems old
  rwa [hsame] at hlist

theorem reads_texts (ss old : List String) : Reads textsSlot (textNodes ss) old ss := by
  have hlist : Reads textsSlot (textNodes (ss.map id)) old ss :=
    reads_words id id (fun _ => rfl) ss "" old
  rwa [List.map_id] at hlist

section Entries

variable {α R : Type} {fields : List (FieldSlot R)} {es : List (String × Node)} {r r₂ : R}
  {k : String} {v : Node} {slot : Slot α} {get : R → α} {set : R → α → R} {a : α}

theorem fills_cons (hfind : fields.find? (·.key == k) = some (field k slot get set))
    (hv : Reads slot v (get r) a) (hrest : Fills fields es (set r a) r₂) :
    Fills fields ((k, v) :: es) r r₂ :=
  .cons hfind (hv.decode.bind (.pure _)) hrest

theorem fills_single (hfind : fields.find? (·.key == k) = some (field k slot get set))
    (hv : Reads slot v (get r) a) : Fills fields [(k, v)] r (set r a) :=
  fills_cons hfind hv .nil

theorem fills_congr {r₁ : R} (h : Fills fields es r r₁) (heq : r₁ = r₂) : Fills fields es r r₂ :=
  heq ▸ h

/-- An entry that is left out for an empty list, over a record that has none. -/
theorem fills_optionalWords {type itemType : String} {mk : String → α} {text : α → String}
    {fresh : α} {get : R → List α} {set : R → List α → R} (as : List α)
    (hfind : fields.find? (·.key == k) =
      some (field k (listSlot type (wordSlot itemType mk) fresh) get set))
    (hnone : set r [] = r) (hmk : ∀ a, mk (text a) = a) :
    Fills fields (optionalTexts k (as.map text)) r (set r as) := by
  cases as with
  | nil =>
    rw [hnone]
    exact .nil
  | cons a as => exact fills_single hfind (reads_words mk text hmk (a :: as) fresh _)

theorem fills_optionalTexts {get : R → List String} {set : R → List String → R}
    (ss : List String) (hfind : fields.find? (·.key == k) = some (field k textsSlot get set))
    (hnone : set r [] = r) : Fills fields (optionalTexts k ss) r (set r ss) := by
  have hwords : Fills fields (optionalTexts k (ss.map id)) r (set r ss) :=
    fills_optionalWords ss hfind hnone fun _ => rfl
  rwa [List.map_id] at hwords

/-- An entry that is left out for an empty text, over a record that has none. -/
theorem fills_optionalText {type : String} {mk : String → α} {get : R → α} {set : R → α → R}
    (s : String) (hfind : fields.find? (·.key == k) = some (field k (wordSlot type mk) get set))
    (hnone : set r (mk "") = r) : Fills fields (optionalText k s) r (set r (mk s)) := by
  unfold optionalText
  split
  · rename_i hs
    rw [beq_iff_eq.mp hs, hnone]
    exact .nil
  · exact fills_single hfind (reads_word type mk s _)

/-- An entry that is left out for a false value, over a record that has it. -/
theorem fills_optionalFlag {get : R → Bool} {set : R → Bool → R} (b : Bool)
    (hfind : fields.find? (·.key == k) = some (field k boolSlot get set))
    (hnone : set r false = r) : Fills fields (optionalFlag k b) r (set r b) := by
  cases b with
  | false =>
    rw [hnone]
    exact .nil
  | true => exact fills_single hfind (reads_bool true _)

/-- An entry that is left out where there is no value, over a record that has none. -/
theorem fills_optionalEntry {β : Type} {type : String} {fresh : α} {f : β → Node} (g : β → α)
    {get : R → Option α} {set : R → Option α → R} {o : Option β} {o' : Option α}
    (ho : o.map g = o')
    (hfind : fields.find? (·.key == k) = some (field k (optionSlot type slot fresh) get set))
    (hget : get r = none) (hnone : set r none = r) (h : ∀ b, Reads slot (f b) fresh (g b)) :
    Fills fields (optionalEntry k f o) r (set r o') := by
  subst ho
  cases o with
  | none =>
    rw [Option.map_none, hnone]
    exact .nil
  | some b =>
    refine fills_single hfind (reads_option ?_)
    rw [hget]
    exact h b

theorem names_append (es es' : List (String × Node)) : names (es ++ es') = names es ++ names es' :=
  List.map_append

theorem optionalTexts_names (k : String) (ss : List String) :
    (names (optionalTexts k ss)).Sublist [k] := by
  unfold optionalTexts
  split
  · exact List.nil_sublist _
  · exact List.Sublist.refl _

theorem optionalEntry_names {β : Type} (k : String) (f : β → Node) (o : Option β) :
    (names (optionalEntry k f o)).Sublist [k] := by
  cases o with
  | none => exact List.nil_sublist _
  | some b => exact List.Sublist.refl _

theorem optionalText_names (k s : String) : (names (optionalText k s)).Sublist [k] := by
  unfold optionalText
  split
  · exact List.nil_sublist _
  · exact List.Sublist.refl _

theorem optionalFlag_names (k : String) (b : Bool) : (names (optionalFlag k b)).Sublist [k] := by
  cases b with
  | false => exact List.nil_sublist _
  | true => exact List.Sublist.refl _

end Entries

theorem reads_filter (f old : Filter) : Reads filterSlot f.toNode old f := by
  refine reads_record ?_ (by simp [names])
  refine fills_cons rfl (reads_texts _ _) ?_
  exact fills_cons rfl (reads_texts _ _) .nil

theorem reads_typeKinds (k old : TypeKinds) : Reads typeKindsSlot k.toNode old k := by
  refine reads_record ?_ (by simp [names])
  iterate 6 refine fills_cons rfl (reads_bool _ _) ?_
  exact .nil

theorem reads_memberKinds (k old : MemberKinds) : Reads memberKindsSlot k.toNode old k := by
  refine reads_record ?_ (by simp [names])
  iterate 9 refine fills_cons rfl (reads_bool _ _) ?_
  exact .nil

theorem reads_scan (s old : Scan) : Reads scanSlot s.toNode old s := by
  refine reads_record ?_ (by simp [names])
  refine fills_cons rfl (reads_filter _ _) ?_
  refine fills_cons rfl (a := s.types) ?_ (fills_cons rfl (a := s.members) ?_
    (fills_cons rfl (reads_words _ _ (fun _ => rfl) _ _ _) .nil))
  · refine reads_record ?_ (by simp [names])
    refine fills_cons rfl (reads_typeKinds _ _) ?_
    iterate 2 refine fills_cons rfl (reads_filter _ _) ?_
    exact .nil
  · refine reads_record ?_ (by simp [names])
    refine fills_cons rfl (reads_memberKinds _ _) ?_
    iterate 2 refine fills_cons rfl (reads_filter _ _) ?_
    exact fills_cons rfl (reads_bool _ _) .nil

/-! ## 2. Selectors -/

/-- A selector as it is read back: without a filter that has no patterns. -/
def Selector.reread (s : Selector) : Selector :=
  { s with annotations := s.annotations.filter fun f => !f.isEmpty }

theorem reads_selector (s : Selector) : Reads selectorSlot s.toNode .any s.reread := by
  unfold Selector.toNode
  simp only [List.append_assoc]
  refine reads_record ?_ ?_
  · refine .append (fills_optionalWords s.targets rfl rfl fun _ => rfl) ?_
    refine .append (fills_optionalWords s.visibility rfl rfl fun _ => rfl) ?_
    refine .append (fills_optionalWords s.memberKinds rfl rfl fun _ => rfl) ?_
    refine .append (fills_optionalWords s.accessorKinds rfl rfl fun _ => rfl) ?_
    refine .append (fills_optionalTexts s.packagePatterns rfl rfl) ?_
    refine .append (fills_optionalTexts s.fqnPatterns rfl rfl) ?_
    refine .append (fills_optionalTexts s.simpleNamePatterns rfl rfl) ?_
    refine .append (fills_optionalTexts s.signaturePatterns rfl rfl) ?_
    exact fills_congr (fills_optionalEntry id (congrFun Option.map_id _) rfl rfl rfl
      fun f => reads_filter f .none) rfl
  · simp only [names_append]
    have hnames := (optionalTexts_names "targets" (s.targets.map (·.text))).append <|
      (optionalTexts_names "visibility" (s.visibility.map (·.text))).append <|
      (optionalTexts_names "member_kinds" (s.memberKinds.map (·.text))).append <|
      (optionalTexts_names "accessor_kinds" (s.accessorKinds.map (·.text))).append <|
      (optionalTexts_names "package_patterns" s.packagePatterns).append <|
      (optionalTexts_names "fqn_patterns" s.fqnPatterns).append <|
      (optionalTexts_names "simple_name_patterns" s.simpleNamePatterns).append <|
      (optionalTexts_names "signature_patterns" s.signaturePatterns).append <|
      optionalEntry_names "annotations" Filter.toNode (s.annotations.filter fun f => !f.isEmpty)
    exact hnames.nodup (by decide)

/-! ## 3. Severities and policies -/

/-- An override as it is read back. -/
def Override.reread (o : Override) : Override := { o with condition := o.condition.map (·.reread) }

theorem reads_severity (s old : Severity) : Reads severitySlot (.ofText s.text) old s :=
  reads_word _ _ _ _

theorem reads_override (o : Override) : Reads overrideSlot o.toNode ⟨none, ⟨""⟩⟩ o.reread := by
  refine reads_record ?_ ?_
  · exact .append (fills_optionalEntry Selector.reread rfl rfl rfl rfl reads_selector)
      (fills_cons rfl (reads_severity o.severity _) .nil)
  · rw [names_append]
    exact ((optionalEntry_names "match" _ _).append (List.Sublist.refl ["severity"])).nodup
      (by decide)

theorem reads_policy (p : Policy) : Reads policySlot p.toNode .blank p := by
  unfold Policy.toNode
  simp only [List.append_assoc]
  refine reads_record ?_ ?_
  · refine .append (fills_single rfl (reads_word _ _ _ _)) ?_
    refine .append (fills_optionalWords p.targets rfl rfl fun _ => rfl) ?_
    refine .append (fills_single rfl (reads_word _ _ _ _)) ?_
    refine .append (fills_optionalTexts p.rules rfl rfl) ?_
    refine .append (fills_optionalText p.toSeverity.text rfl rfl) ?_
    exact fills_congr (fills_optionalEntry id (congrFun Option.map_id _) rfl rfl rfl
      fun n => reads_int n 0) rfl
  · simp only [names_append]
    have hnames := (List.Sublist.refl ["annotation_pattern"]).append <|
      (optionalTexts_names "targets" (p.targets.map (·.text))).append <|
      (List.Sublist.refl ["effect"]).append <| (optionalTexts_names "rules" p.rules).append <|
      (optionalText_names "to_severity" p.toSeverity.text).append <|
      optionalEntry_names "shift" (fun n : Int64 => Node.ofInt n.toInt) p.shift
    exact hnames.nodup (by decide)

/-- What a dictionary of severities makes of the one that it is decoded over: its own entries count,
and for all other visibilities those that are there. -/
structure Merged (given before after : List (Visibility × Severity)) : Prop where
  set : ∀ v s, (v, s) ∈ given → after.lookup v = some s
  kept : ∀ v, v ∉ given.map (·.1) → after.lookup v = before.lookup v

theorem sortKeys_map {α β : Type} (f : α → β) (es : List (String × α)) :
    sortKeys (es.map fun e => (e.1, f e.2)) = (sortKeys es).map fun e => (e.1, f e.2) := by
  have hsort := List.map_mergeSort (l := es) (f := fun e => (e.1, f e.2))
    (r := fun a b => !keyBefore b.1 a.1) (s := fun a b => !keyBefore b.1 a.1) fun _ _ _ _ => rfl
  exact hsort.symm

theorem reads_byVisibility {given : List (Visibility × Severity)} (h : (given.map (·.1)).Nodup)
    (before : List (Visibility × Severity)) :
    ∃ after, Merged given before after ∧
      Reads (dictSlot "map[model.Visibility]model.Severity" visibilitySlot ⟨""⟩ severitySlot ⟨""⟩)
        (.ofEntries (sortKeys (given.map fun (v, s) => (v.text, Node.ofText s.text))))
        before after := by
  obtain ⟨es, hes⟩ : ∃ es, es = sortKeys (given.map fun e => (e.1.text, e.2)) := ⟨_, rfl⟩
  have hperm : es.Perm (given.map fun e => (e.1.text, e.2)) := hes ▸ List.mergeSort_perm _ _
  have hsorted : sortKeys (given.map fun (v, s) => (v.text, Node.ofText s.text)) =
      es.map fun e => (e.1, Node.ofText e.2.text) := by
    rw [hes, ← sortKeys_map (fun s : Severity => Node.ofText s.text), List.map_map]
    rfl
  have hkeys : (es.map fun e => Visibility.mk e.1).Nodup := by
    rw [(hperm.map _).nodup_iff, List.map_map]
    exact h
  refine ⟨es.foldl (fun d e => setEntry (Visibility.mk e.1) e.2 d) before, ⟨?_, ?_⟩, ?_⟩
  · intro v s hmem
    exact lookup_foldl_setEntry_of_mem (k := v.text) hkeys
      (hperm.mem_iff.mpr (List.mem_map.mpr ⟨(v, s), hmem, rfl⟩))
  · intro v hnot
    refine lookup_foldl_setEntry_of_notMem fun e he heq => ?_
    obtain ⟨e', he', rfl⟩ := List.mem_map.mp (hperm.mem_iff.mp he)
    exact hnot (List.mem_map.mpr ⟨e', he', heq⟩)
  · rw [hsorted]
    refine reads_dict (f := fun s : Severity => Node.ofText s.text)
      (fun e _ => reads_severity e.2 _) ?_ before
    refine List.Pairwise.of_map (S := (· ≠ ·)) Visibility.mk
      (fun a b hne heq => hne (congrArg _ heq)) ?_
    rw [List.map_map]
    exact hkeys

theorem reads_defaults {d : Defaults} (h : (d.severity.byVisibility.map (·.1)).Nodup)
    (old : Defaults) :
    ∃ after, Merged d.severity.byVisibility old.severity.byVisibility after ∧
      Reads defaultsSlot d.toNode old
        ⟨⟨after, d.severity.overrides.map (·.reread)⟩, d.policies⟩ := by
  obtain ⟨after, hmerged, hreads⟩ := reads_byVisibility h old.severity.byVisibility
  refine ⟨after, hmerged, reads_record ?_ (by simp [names])⟩
  have hpolicies : Reads (listSlot "[]config.AnnotationPolicy" policySlot .blank)
      (.ofList (d.policies.map Policy.toNode)) old.policies (d.policies.map id) :=
    reads_list (fun p _ => reads_policy p) _
  rw [List.map_id] at hpolicies
  refine fills_cons rfl (a := ⟨after, d.severity.overrides.map (·.reread)⟩) ?_
    (fills_cons rfl hpolicies .nil)
  refine reads_record (fills_cons rfl hreads (fills_cons rfl ?_ .nil)) (by simp [names])
  exact reads_list (fun o _ => reads_override o) _

/-! ## 4. Rules and the rest -/

/-- A rule entry as it is read back. -/
def RuleEntry.reread (r : RuleEntry) : RuleEntry :=
  { r with condition := r.condition.map (·.reread) }

/-- The options of a rule are something, and stand where they are. -/
def RuleEntry.Plain (r : RuleEntry) : Prop :=
  ∀ n, r.options = some n → n.isNull = false ∧ n.isAlias = false

theorem reads_options {n : Node} (h : n.isNull = false ∧ n.isAlias = false) (old : Option Node) :
    Reads optionsSlot n old (some n) := by
  refine ⟨h.2, h.1, ?_⟩
  simp only [optionsSlot, h.1]
  exact .pure _

theorem reads_rule {r : RuleEntry} (h : r.Plain) :
    Reads ruleSlot r.toNode (.named "") r.reread := by
  obtain ⟨name, enabled, severity, condition, options⟩ := r
  unfold RuleEntry.toNode
  simp only [List.append_assoc]
  refine reads_record ?_ ?_
  · refine .append (fills_single rfl (reads_word _ _ _ _)) ?_
    refine .append (fills_optionalEntry id (congrFun Option.map_id enabled) rfl rfl rfl
      fun b => reads_bool b false) ?_
    refine .append (fills_optionalText severity.text rfl rfl) ?_
    refine .append (fills_optionalEntry Selector.reread rfl rfl rfl rfl reads_selector) ?_
    cases options with
    | none => exact .nil
    | some n => exact fills_cons rfl (reads_options (h n rfl) _) .nil
  · simp only [names_append]
    have hnames := (List.Sublist.refl ["id"]).append <|
      (optionalEntry_names "enabled" Node.ofBool enabled).append <|
      (optionalText_names "severity" severity.text).append <|
      (optionalEntry_names "when" Selector.toNode condition).append <|
      optionalEntry_names "config" (fun n : Node => n) options
    exact hnames.nodup (by decide)

theorem reads_telemetry {t : Telemetry} (h : Legible t.tracing.sampleRatio) {old : Telemetry}
    (hmetrics : old.metrics.enabled = false) (htracing : old.tracing.enabled = false) :
    Reads telemetrySlot t.toNode old t := by
  obtain ⟨logging, metrics, tracing⟩ := t
  obtain ⟨oldLogging, ⟨metricsOn, space, file⟩, ⟨tracingOn, endpoint, insecure, name, ratio⟩⟩ := old
  subst hmetrics htracing
  refine reads_record ?_ (by simp [names])
  refine fills_cons rfl (a := logging) ?_ (fills_cons rfl (a := metrics) ?_
    (fills_cons rfl (a := tracing) ?_ .nil))
  · refine reads_record ?_ (by simp [names])
    iterate 2 refine fills_cons rfl (reads_word _ _ _ _) ?_
    exact fills_cons rfl (reads_bool _ _) .nil
  · refine reads_record ?_ ?_
    · refine .append (fills_optionalFlag _ rfl rfl) ?_
      refine fills_cons rfl (reads_word _ _ _ _) ?_
      exact fills_cons rfl (reads_word _ _ _ _) .nil
    · rw [names_append]
      exact ((optionalFlag_names "enabled" _).append
        (List.Sublist.refl ["namespace", "textfile"])).nodup (by decide)
  · refine reads_record ?_ ?_
    · refine .append (fills_optionalFlag _ rfl rfl) ?_
      refine fills_cons rfl (reads_word _ _ _ _) ?_
      refine fills_cons rfl (reads_bool _ _) ?_
      refine fills_cons rfl (reads_word _ _ _ _) ?_
      exact fills_cons rfl (reads_float h _) .nil
    · rw [names_append]
      exact ((optionalFlag_names "enabled" _).append
        (List.Sublist.refl ["endpoint", "insecure", "service_name", "sample_ratio"])).nodup
        (by decide)

/-! ## 5. The whole -/

/-- No visibility has two severities, the options of the rules refer to no other place, and the
sample ratio is told by its digits. -/
structure Settled (c : Config) : Prop where
  visibilities : (c.defaults.severity.byVisibility.map (·.1)).Nodup
  options : ∀ r ∈ c.rules, r.Plain
  ratio : Legible c.telemetry.tracing.sampleRatio

/-- A configuration as it is read back, with the severities by visibility `after`. -/
def reread (c : Config) (after : List (Visibility × Severity)) : Config :=
  { c with
    defaults := ⟨⟨after, c.defaults.severity.overrides.map (·.reread)⟩, c.defaults.policies⟩
    rules := c.rules.map (·.reread) }

theorem reads_config {c : Config} (hc : c.Settled) :
    ∃ after, Merged c.defaults.severity.byVisibility Config.default.defaults.severity.byVisibility
      after ∧ Reads configSlot c.toNode .default (c.reread after) := by
  obtain ⟨after, hmerged, hdefaults⟩ := reads_defaults hc.visibilities Config.default.defaults
  refine ⟨after, hmerged, reads_record ?_ (by simp [names])⟩
  refine fills_cons rfl (reads_word _ _ _ _) ?_
  refine fills_cons rfl (reads_scan _ _) ?_
  refine fills_cons rfl hdefaults ?_
  refine fills_cons rfl (reads_list (fun r hr => reads_rule (hc.options r hr)) _) ?_
  refine fills_cons rfl (a := c.failOn) ?_ ?_
  · exact reads_record (fills_cons rfl (reads_severity _ _) .nil) (by simp [names])
  · exact fills_cons rfl (reads_telemetry hc.ratio rfl rfl) .nil

/-- **What is left of a configuration in its document.**  Everything is, but for the filters without
patterns that selectors have, and the visibilities without a severity: they get back the one they
have by default. -/
theorem decodeOver_toNode (c : Config) (hc : c.Settled) :
    ∃ after, decodeOver .default c.toNode = .ok (c.reread after) ∧
      (∀ v s, (v, s) ∈ c.defaults.severity.byVisibility → after.lookup v = some s) ∧
      ∀ v, v ∉ c.defaults.severity.byVisibility.map (·.1) →
        after.lookup v = Config.default.defaults.severity.byVisibility.lookup v := by
  obtain ⟨after, hmerged, hreads⟩ := reads_config hc
  exact ⟨after, hreads.run, hmerged.set, hmerged.kept⟩

/-- A configuration with a filter without patterns and no severities by visibility. -/
def sparse : Config :=
  { Config.default with
    defaults := ⟨⟨[], []⟩, Config.default.defaults.policies⟩
    rules := [{ RuleEntry.named "doc-presence" with
      condition := some { Selector.any with annotations := some .none } }] }

/-- It is read back with a selector that picks everything and with severities. -/
theorem decodeOver_toNode_sparse :
    ∃ d, decodeOver .default sparse.toNode = .ok d ∧ d.rules.map (·.condition) = [some .any] ∧
      d.defaults.severity.byVisibility.lookup .pub = some .error := by
  have hplain : ∀ r ∈ sparse.rules, r.Plain := by
    intro r hr n hn
    obtain rfl := List.mem_singleton.mp hr
    cases hn
  have hratio : Legible sparse.telemetry.tracing.sampleRatio := by
    unfold Legible
    decide +kernel
  obtain ⟨after, hdecode, -, hkept⟩ := decodeOver_toNode sparse ⟨List.nodup_nil, hplain, hratio⟩
  exact ⟨_, hdecode, rfl, hkept .pub (List.not_mem_nil)⟩

/-! ## 6. The text -/

theorem Selector.toNode_reread (s : Selector) : s.reread.toNode = s.toNode := by
  unfold Selector.toNode Selector.reread
  simp [Option.filter_filter]

theorem optionalEntry_reread (k : String) (o : Option Selector) :
    optionalEntry k Selector.toNode (o.map (·.reread)) = optionalEntry k Selector.toNode o := by
  cases o with
  | none => rfl
  | some s =>
    simp only [Option.map_some, optionalEntry, Selector.toNode_reread]

/-- **The text of a configuration does not tell whether a selector has a filter without
patterns.** -/
theorem write_reread (c : Config) :
    (c.reread c.defaults.severity.byVisibility).write = c.write := by
  have hrule : ∀ r : RuleEntry, r.reread.toNode = r.toNode := by
    intro r
    unfold RuleEntry.toNode RuleEntry.reread
    simp only [optionalEntry_reread]
  have hoverride : ∀ o : Override, o.reread.toNode = o.toNode := by
    intro o
    unfold Override.toNode Override.reread
    simp only [optionalEntry_reread]
  unfold write toNode reread Defaults.toNode
  simp [Function.comp_def, hrule, hoverride]

/-- A document with one rule, for what passes a filter without patterns. -/
def filteredRule : String :=
  "rules:\n  - id: doc-presence\n    when:\n      annotations: \x7b\x7d\n"

/-- A document with one rule, for everything. -/
def unfilteredRule : String := "rules:\n  - id: doc-presence\n    when: \x7b\x7d\n"

/-- The configuration by default, but with one rule, which has a selector. -/
def withRule (s : Selector) : Config :=
  { Config.default with rules := [{ RuleEntry.named "doc-presence" with condition := some s }] }

/-- The parts of a rule entry apart from its options. -/
def RuleEntry.parts (r : RuleEntry) : String × Option Bool × Severity × Option Selector :=
  (r.id, r.enabled, r.severity, r.condition)

/-- Two configurations agree in all that can be compared, and their rules have no options. -/
def Agrees (c d : Config) : Prop :=
  (c.projectRoot = d.projectRoot ∧ c.scan = d.scan ∧ c.defaults = d.defaults ∧
    c.failOn = d.failOn ∧ c.telemetry = d.telemetry) ∧
  c.rules.map RuleEntry.parts = d.rules.map RuleEntry.parts ∧
  (∀ r ∈ c.rules, r.options.isNone = true) ∧ ∀ r ∈ d.rules, r.options.isNone = true

instance (c d : Config) : Decidable (Agrees c d) := inferInstanceAs (Decidable (_ ∧ _))

theorem rules_eq_of_parts : ∀ {rs qs : List RuleEntry},
    rs.map RuleEntry.parts = qs.map RuleEntry.parts → (∀ r ∈ rs, r.options.isNone = true) →
      (∀ q ∈ qs, q.options.isNone = true) → rs = qs
  | [], [], _, _, _ => rfl
  | r :: rs, q :: qs, h, hr, hq => by
      obtain ⟨hhead, htail⟩ := List.cons.inj h
      rw [List.forall_mem_cons] at hr hq
      have hsame : r = q := by
        obtain ⟨name, enabled, severity, condition, options⟩ := r
        cases hhead
        rw [Option.isNone_iff_eq_none] at hr hq
        obtain rfl : options = none := hr.1
        rw [← hq.1]
      rw [hsame, rules_eq_of_parts htail hr.2 hq.2]

theorem Agrees.eq {c d : Config} (h : Agrees c d) : c = d := by
  obtain ⟨projectRoot, scan, defaults, rules, failOn, telemetry⟩ := c
  obtain ⟨⟨rfl, rfl, rfl, rfl, rfl⟩, hparts, hnone, hnone'⟩ := h
  rw [show rules = d.rules from rules_eq_of_parts hparts hnone hnone']

/-- What a text describes is not always what its configuration is written as: a selector loses its
filter. -/
theorem parse_write_forgets :
    ¬ ∀ text c, parse text = .ok c →
      ∃ d, parse c.write = .ok d ∧ d.rules.map (·.condition) = c.rules.map (·.condition) := by
  intro hall
  have hfiltered : (parse filteredRule).toOption.any (fun c =>
      decide (Agrees c (withRule { Selector.any with annotations := some .none }))) = true := by
    decide +kernel
  have hunfiltered : (parse unfilteredRule).toOption.any (fun c =>
      decide (Agrees c (withRule .any))) = true := by
    decide +kernel
  obtain ⟨c, hc, hagree⟩ := exists_eq_ok_of_any hfiltered
  obtain ⟨c', hc', hagree'⟩ := exists_eq_ok_of_any hunfiltered
  obtain rfl := hagree.eq
  obtain rfl := hagree'.eq
  have hwrite := write_reread (withRule { Selector.any with annotations := some .none })
  obtain ⟨d, hd, hcondition⟩ := hall _ _ hc
  obtain ⟨d', hd', hcondition'⟩ := hall _ _ hc'
  have hsame : (withRule .any).write =
      (withRule { Selector.any with annotations := some .none }).write := hwrite
  rw [hsame, hd] at hd'
  cases hd'
  rw [hcondition] at hcondition'
  cases hcondition'

end DocAudit.Config
