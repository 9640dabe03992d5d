import DocAudit.Config.Load
import DocAudit.Proofs.Config.Validate
import DocAudit.Proofs.Except
import DocAudit.Proofs.Files.Settings
import DocAudit.Proofs.Yaml.Overlay

/-!
# What a document changes in a configuration

A text is decoded over the default configuration.  The configuration is made of leaves, each under
the path of keys that sets it; a leaf whose path the document does not get to is as it is by
default.

* `leaves`: the leaves of a configuration, from the fields of its records;
* `decodeOver_follows`: every leaf of a decoded configuration follows the document;
* `parse_overlays_default`: so does every leaf of a configuration that is accepted, over the default
  one, and the severities by visibility are the default ones updated by the entries of the document.
-/

namespace DocAudit.Config

open Yaml

/-! ## 1. Scalars and lists -/

/-- A list of texts. -/
def textsPiece : Piece (List String) := .words "[]string" "string" id ""

/-- A truth value. -/
def truthPiece : Piece Bool := .scalar "bool" fun v _ => truth? v

/-- A severity. -/
def severityPiece : Piece Severity := .word "model.Severity" Severity.mk

/-- Visibilities. -/
def visibilitiesPiece : Piece (List Visibility) :=
  .words "[]model.Visibility" "model.Visibility" Visibility.mk ⟨""⟩

/-- Kinds. -/
def kindsPiece : Piece (List Kind) := .words "[]model.Kind" "model.Kind" Kind.mk ⟨""⟩

/-- Severities by visibility. -/
def byVisibilityPiece : Piece (List (Visibility × Severity)) :=
  .dict "map[model.Visibility]model.Severity" "model.Visibility" Visibility.mk ⟨""⟩ "model.Severity"
    Severity.mk ⟨""⟩

/-- Null leaves the options of a rule as they were, and any other node becomes them. -/
def optionsChange (s : Spot) (old new : Option Node) : Prop :=
  if s.node.isNull then new = old else new = some s.node

theorem follows_options : optionsSlot.Follows [.whole optionsChange] := by
  intro s old hs
  refine Ensures.mono ?_ fun x => allFollow_whole.mpr
  unfold optionsSlot
  refine .ite (fun hnull => ?_) fun hnull => ?_
  · have hunit : (recordSlot true "config.RuleOptions" (([] : List (RecordPart Unit)).map
        RecordPart.toField)).Follows (RecordPart.allLeaves []) := follows_record (by simp) (by simp)
    refine (hunit s () hs).bind fun x => .pure fun _ => ?_
    unfold optionsChange
    rw [if_pos hnull]
  · refine .pure ?_
    unfold optionsChange
    rw [if_neg hnull]

/-- The options of a rule. -/
def optionsPiece : Piece (Option Node) :=
  ⟨optionsSlot, [.whole optionsChange], Leaf.full_whole _, follows_options⟩

/-! ## 2. Records -/

/-- The fields of a filter. -/
def filterParts : List (RecordPart Filter) := [
  part "include" textsPiece (·.includes) fun r v => { r with includes := v },
  part "exclude" textsPiece (·.excludes) fun r v => { r with excludes := v }]

/-- A filter. -/
def filterPiece : Piece Filter :=
  .record "config.Filter" filterParts (by decide)
    (by simp [filterParts, part, RecordPart.Apart])
    (by rintro ⟨⟩ ⟨⟩ h; simpa [filterParts, part] using h)

/-- The fields of a set of kinds of types. -/
def typeKindsParts : List (RecordPart TypeKinds) := [
  part "structs" truthPiece (·.structs) fun r v => { r with structs := v },
  part "interfaces" truthPiece (·.interfaces) fun r v => { r with interfaces := v },
  part "func_types" truthPiece (·.funcTypes) fun r v => { r with funcTypes := v },
  part "defined" truthPiece (·.defined) fun r v => { r with defined := v },
  part "aliases" truthPiece (·.aliases) fun r v => { r with aliases := v },
  part "errors" truthPiece (·.errors) fun r v => { r with errors := v }]

/-- A set of kinds of types. -/
def typeKindsPiece : Piece TypeKinds :=
  .record "config.TypeKinds" typeKindsParts (by decide)
    (by simp [typeKindsParts, part, RecordPart.Apart])
    (by rintro ⟨⟩ ⟨⟩ h; simpa [typeKindsParts, part] using h)

/-- The fields of a scan of types. -/
def typeScanParts : List (RecordPart TypeScan) := [
  part "include" typeKindsPiece (·.kinds) fun r v => { r with kinds := v },
  part "names" filterPiece (·.names) fun r v => { r with names := v },
  part "annotations" filterPiece (·.annotations) fun r v => { r with annotations := v }]

/-- A scan of types. -/
def typeScanPiece : Piece TypeScan :=
  .record "config.TypeScanConfig" typeScanParts (by decide)
    (by simp [typeScanParts, part, RecordPart.Apart])
    (by rintro ⟨⟩ ⟨⟩ h; simpa [typeScanParts, part] using h)

/-- The fields of a set of kinds of members. -/
def memberKindsParts : List (RecordPart MemberKinds) := [
  part "fields" truthPiece (·.fields) fun r v => { r with fields := v },
  part "methods" truthPiece (·.methods) fun r v => { r with methods := v },
  part "constructors" truthPiece (·.constructors) fun r v => { r with constructors := v },
  part "functions" truthPiece (·.functions) fun r v => { r with functions := v },
  part "constants" truthPiece (·.constants) fun r v => { r with constants := v },
  part "variables" truthPiece (·.vars) fun r v => { r with vars := v },
  part "getters" truthPiece (·.getters) fun r v => { r with getters := v },
  part "setters" truthPiece (·.setters) fun r v => { r with setters := v },
  part "embedded" truthPiece (·.embedded) fun r v => { r with embedded := v }]

/-- A set of kinds of members. -/
def memberKindsPiece : Piece MemberKinds :=
  .record "config.MemberKinds" memberKindsParts (by decide)
    (by simp [memberKindsParts, part, RecordPart.Apart])
    (by rintro ⟨⟩ ⟨⟩ h; simpa [memberKindsParts, part] using h)

/-- The fields of a scan of members. -/
def memberScanParts : List (RecordPart MemberScan) := [
  part "include" memberKindsPiece (·.kinds) fun r v => { r with kinds := v },
  part "names" filterPiece (·.names) fun r v => { r with names := v },
  part "annotations" filterPiece (·.annotations) fun r v => { r with annotations := v },
  part "include_inherited" truthPiece (·.inherited) fun r v => { r with inherited := v }]

/-- A scan of members. -/
def memberScanPiece : Piece MemberScan :=
  .record "config.MemberScanConfig" memberScanParts (by decide)
    (by simp [memberScanParts, part, RecordPart.Apart])
    (by rintro ⟨⟩ ⟨⟩ h; simpa [memberScanParts, part] using h)

/-- The fields of a scan. -/
def scanParts : List (RecordPart Scan) := [
  part "packages" filterPiece (·.packages) fun r v => { r with packages := v },
  part "types" typeScanPiece (·.types) fun r v => { r with types := v },
  part "members" memberScanPiece (·.members) fun r v => { r with members := v },
  part "visibilities" visibilitiesPiece (·.visibilities) fun r v => { r with visibilities := v }]

/-- A scan. -/
def scanPiece : Piece Scan :=
  .record "config.ScanConfig" scanParts (by decide)
    (by simp [scanParts, part, RecordPart.Apart])
    (by rintro ⟨⟩ ⟨⟩ h; simpa [scanParts, part] using h)

/-- The fields of a selector. -/
def selectorParts : List (RecordPart Selector) := [
  part "targets" kindsPiece (·.targets) fun r v => { r with targets := v },
  part "visibility" visibilitiesPiece (·.visibility) fun r v => { r with visibility := v },
  part "member_kinds"
    (.words "[]model.MemberKind" "model.MemberKind" MemberKind.mk ⟨""⟩) (·.memberKinds)
    fun r v => { r with memberKinds := v },
  part "accessor_kinds"
    (.words "[]model.AccessorKind" "model.AccessorKind" AccessorKind.mk ⟨""⟩) (·.accessorKinds)
    fun r v => { r with accessorKinds := v },
  part "package_patterns" textsPiece (·.packagePatterns)
    fun r v => { r with packagePatterns := v },
  part "fqn_patterns" textsPiece (·.fqnPatterns) fun r v => { r with fqnPatterns := v },
  part "simple_name_patterns" textsPiece (·.simpleNamePatterns)
    fun r v => { r with simpleNamePatterns := v },
  part "signature_patterns" textsPiece (·.signaturePatterns)
    fun r v => { r with signaturePatterns := v },
  part "annotations" (.optional "config.Filter" filterPiece .none) (·.annotations)
    fun r v => { r with annotations := v }]

/-- A selector. -/
def selectorPiece : Piece Selector :=
  .record "config.Selector" selectorParts (by decide)
    (by simp [selectorParts, part, RecordPart.Apart])
    (by rintro ⟨⟩ ⟨⟩ h; simpa [selectorParts, part] using h)

/-- The fields of an override. -/
def overrideParts : List (RecordPart Override) := [
  part "match" (.optional "config.Selector" selectorPiece .any) (·.condition)
    fun r v => { r with condition := v },
  part "severity" severityPiece (·.severity) fun r v => { r with severity := v }]

/-- An override. -/
def overridePiece : Piece Override :=
  .record "config.SeverityOverride" overrideParts (by decide)
    (by simp [overrideParts, part, RecordPart.Apart])
    (by rintro ⟨⟩ ⟨⟩ h; simpa [overrideParts, part] using h)

/-- The fields of a severity profile. -/
def profileParts : List (RecordPart SeverityProfile) := [
  part "by_visibility" byVisibilityPiece (·.byVisibility) fun r v => { r with byVisibility := v },
  part "overrides"
    (.list "[]config.SeverityOverride" overridePiece ⟨.none, ⟨""⟩⟩ tells_record) (·.overrides)
    fun r v => { r with overrides := v }]

/-- A severity profile. -/
def profilePiece : Piece SeverityProfile :=
  .record "config.SeverityProfile" profileParts (by decide)
    (by simp [profileParts, part, RecordPart.Apart])
    (by rintro ⟨⟩ ⟨⟩ h; simpa [profileParts, part] using h)

/-- The fields of an annotation policy. -/
def policyParts : List (RecordPart Policy) := [
  part "annotation_pattern" (.word "string" id) (·.annotationPattern)
    fun r v => { r with annotationPattern := v },
  part "targets" kindsPiece (·.targets) fun r v => { r with targets := v },
  part "effect" (.word "model.Effect" Effect.mk) (·.effect) fun r v => { r with effect := v },
  part "rules" textsPiece (·.rules) fun r v => { r with rules := v },
  part "to_severity" severityPiece (·.toSeverity) fun r v => { r with toSeverity := v },
  part "shift" (.optional "int" (.scalar "int" fun v _ => int64? v) 0) (·.shift)
    fun r v => { r with shift := v }]

/-- An annotation policy. -/
def policyPiece : Piece Policy :=
  .record "config.AnnotationPolicy" policyParts (by decide)
    (by simp [policyParts, part, RecordPart.Apart])
    (by rintro ⟨⟩ ⟨⟩ h; simpa [policyParts, part] using h)

/-- The fields of the severities and policies. -/
def defaultsParts : List (RecordPart Defaults) := [
  part "severity" profilePiece (·.severity) fun r v => { r with severity := v },
  part "annotation_policies"
    (.list "[]config.AnnotationPolicy" policyPiece .blank tells_record) (·.policies)
    fun r v => { r with policies := v }]

/-- The severities and policies. -/
def defaultsPiece : Piece Defaults :=
  .record "config.DefaultsConfig" defaultsParts (by decide)
    (by simp [defaultsParts, part, RecordPart.Apart])
    (by rintro ⟨⟩ ⟨⟩ h; simpa [defaultsParts, part] using h)

/-- The fields of a rule entry. -/
def ruleParts : List (RecordPart RuleEntry) := [
  part "id" (.word "string" id) (·.id) fun r v => { r with id := v },
  part "enabled" (.optional "bool" truthPiece false) (·.enabled)
    fun r v => { r with enabled := v },
  part "severity" severityPiece (·.severity) fun r v => { r with severity := v },
  part "when" (.optional "config.Selector" selectorPiece .any) (·.condition)
    fun r v => { r with condition := v },
  part "config" optionsPiece (·.options) fun r v => { r with options := v }]

/-- A rule entry. -/
def rulePiece : Piece RuleEntry :=
  .record "config.RuleConfig" ruleParts (by decide)
    (by simp [ruleParts, part, RecordPart.Apart])
    (by rintro ⟨⟩ ⟨⟩ h; simpa [ruleParts, part] using h)

/-- The fields of the failure threshold. -/
def failOnParts : List (RecordPart Severity) := [
  part "severity" severityPiece id fun _ v => v]

/-- The failure threshold. -/
def failOnPiece : Piece Severity :=
  .record "config.FailOnConfig" failOnParts (by decide)
    (by simp [failOnParts, part, RecordPart.Apart])
    (by rintro ⟨⟩ ⟨⟩ h; simpa [failOnParts, part] using h)

/-- The fields of the log. -/
def loggingParts : List (RecordPart Logging) := [
  part "level" (.word "string" id) (·.level) fun r v => { r with level := v },
  part "format" (.word "string" id) (·.format) fun r v => { r with format := v },
  part "add_source" truthPiece (·.addSource) fun r v => { r with addSource := v }]

/-- The log. -/
def loggingPiece : Piece Logging :=
  .record "config.LoggingConfig" loggingParts (by decide)
    (by simp [loggingParts, part, RecordPart.Apart])
    (by rintro ⟨⟩ ⟨⟩ h; simpa [loggingParts, part] using h)

/-- The fields of the counters. -/
def metricsParts : List (RecordPart Metrics) := [
  part "enabled" truthPiece (·.enabled) fun r v => { r with enabled := v },
  part "namespace" (.word "string" id) (·.namespace_) fun r v => { r with namespace_ := v },
  part "textfile" (.word "string" id) (·.textfile) fun r v => { r with textfile := v }]

/-- The counters. -/
def metricsPiece : Piece Metrics :=
  .record "config.MetricsConfig" metricsParts (by decide)
    (by simp [metricsParts, part, RecordPart.Apart])
    (by rintro ⟨⟩ ⟨⟩ h; simpa [metricsParts, part] using h)

/-- The fields of the trace. -/
def tracingParts : List (RecordPart Tracing) := [
  part "enabled" truthPiece (·.enabled) fun r v => { r with enabled := v },
  part "endpoint" (.word "string" id) (·.endpoint) fun r v => { r with endpoint := v },
  part "insecure" truthPiece (·.insecure) fun r v => { r with insecure := v },
  part "service_name" (.word "string" id) (·.serviceName) fun r v => { r with serviceName := v },
  part "sample_ratio" (.scalar "float64" fun v _ => float? v) (·.sampleRatio)
    fun r v => { r with sampleRatio := v }]

/-- The trace. -/
def tracingPiece : Piece Tracing :=
  .record "config.TracingConfig" tracingParts (by decide)
    (by simp [tracingParts, part, RecordPart.Apart])
    (by rintro ⟨⟩ ⟨⟩ h; simpa [tracingParts, part] using h)

/-- The fields of the telemetry. -/
def telemetryParts : List (RecordPart Telemetry) := [
  part "logging" loggingPiece (·.logging) fun r v => { r with logging := v },
  part "metrics" metricsPiece (·.metrics) fun r v => { r with metrics := v },
  part "tracing" tracingPiece (·.tracing) fun r v => { r with tracing := v }]

/-- The telemetry. -/
def telemetryPiece : Piece Telemetry :=
  .record "config.TelemetryConfig" telemetryParts (by decide)
    (by simp [telemetryParts, part, RecordPart.Apart])
    (by rintro ⟨⟩ ⟨⟩ h; simpa [telemetryParts, part] using h)

/-- The fields of a configuration. -/
def configParts : List (RecordPart Config) := [
  part "project_root" (.word "string" id) (·.projectRoot) fun r v => { r with projectRoot := v },
  part "scan" scanPiece (·.scan) fun r v => { r with scan := v },
  part "defaults" defaultsPiece (·.defaults) fun r v => { r with defaults := v },
  part "rules" (.list "[]config.RuleConfig" rulePiece (.named "") tells_record) (·.rules)
    fun r v => { r with rules := v },
  part "fail_on" failOnPiece (·.failOn) fun r v => { r with failOn := v },
  part "telemetry" telemetryPiece (·.telemetry) fun r v => { r with telemetry := v }]

/-- A configuration. -/
def configPiece : Piece Config :=
  .record "config.Config" configParts (by decide)
    (by simp [configParts, part, RecordPart.Apart])
    (by rintro ⟨⟩ ⟨⟩ h; simpa [configParts, part] using h)

/-- **The leaves of a configuration.** -/
def leaves : List (Leaf Config) := configPiece.leaves

/-- Together they are the whole configuration. -/
theorem full_leaves : Leaf.Full leaves := configPiece.full

example : (leaves.map fun l => ".".intercalate l.path) = [
    "project_root", "scan.packages.include", "scan.packages.exclude",
    "scan.types.include.structs", "scan.types.include.interfaces", "scan.types.include.func_types",
    "scan.types.include.defined", "scan.types.include.aliases", "scan.types.include.errors",
    "scan.types.names.include", "scan.types.names.exclude",
    "scan.types.annotations.include", "scan.types.annotations.exclude",
    "scan.members.include.fields", "scan.members.include.methods",
    "scan.members.include.constructors", "scan.members.include.functions",
    "scan.members.include.constants", "scan.members.include.variables",
    "scan.members.include.getters", "scan.members.include.setters",
    "scan.members.include.embedded", "scan.members.names.include", "scan.members.names.exclude",
    "scan.members.annotations.include", "scan.members.annotations.exclude",
    "scan.members.include_inherited", "scan.visibilities",
    "defaults.severity.by_visibility", "defaults.severity.overrides",
    "defaults.annotation_policies", "rules", "fail_on.severity",
    "telemetry.logging.level", "telemetry.logging.format", "telemetry.logging.add_source",
    "telemetry.metrics.enabled", "telemetry.metrics.namespace", "telemetry.metrics.textfile",
    "telemetry.tracing.enabled", "telemetry.tracing.endpoint", "telemetry.tracing.insecure",
    "telemetry.tracing.service_name", "telemetry.tracing.sample_ratio"] := by decide +kernel

/-! ## 3. Decoding -/

/-- The slot of a configuration is the one of its fields. -/
theorem configPiece_slot : configPiece.slot = configSlot := rfl

/-- **Every leaf of a decoded configuration follows the document**, over the configuration that was
there. -/
theorem decodeOver_follows {c c' : Config} {n : Node} (hsound : n.Sound)
    (hmerge : n.Throughout Node.Unmerged) (h : decodeOver c n = .ok c') :
    Leaf.AllFollow leaves (.of [] n) c c' := by
  have hplain : n.Throughout Node.Plain := hsound.and hmerge
  rw [decodeOver, ← configPiece_slot] at h
  obtain ⟨x, hx, rfl⟩ := (ensures_decode hplain open_nil (configPiece.follows · c)).of_run h
  exact hx

/-- A null document changes nothing. -/
theorem follows_null (c : Config) : Leaf.AllFollow leaves (.of [] .null) c c :=
  RecordPart.follows_scalar

theorem decodeBytes_follows {base c : Config} {bytes : ByteArray} {root : Option Node}
    (h : decodeBytes base bytes = .ok c) (hroot : readDocument bytes = .ok root)
    (hmerge : (root.getD .null).Throughout Node.Unmerged) :
    Leaf.AllFollow leaves (.of [] (root.getD .null)) base c := by
  unfold decodeBytes at h
  rw [hroot] at h
  cases root with
  | none =>
    cases h
    exact follows_null base
  | some n =>
    exact decodeOver_follows (sound_of_readDocument hroot) hmerge (mapError_eq_ok_iff.mp h)

/-! ## 4. Severities by visibility -/

/-- The severity of a visibility after a document: the one of the last entry that gives it one, and
without such an entry the one that it had. -/
def severityAfter (s : Spot) (before : Option Severity) (v : Visibility) : Option Severity :=
  match s.at? ["defaults", "severity", "by_visibility"] with
  | none => before
  | some t =>
    if t.isNull then none
    else (written (Spot.read? (wordOf Visibility.mk)) (Spot.read? (wordOf Severity.mk))
      t.entries v).or before

theorem byVisibility_mem_leaves :
    Leaf.within "defaults" Config.defaults (Leaf.within "severity" Defaults.severity
      (Leaf.within "by_visibility" SeverityProfile.byVisibility
        (.whole (dictChange (Spot.read? (wordOf Visibility.mk))
          (Spot.read? (wordOf Severity.mk)) ⟨""⟩)))) ∈ leaves := by
  have hthird {α : Type 1} (a b c : α) (as : List α) : c ∈ a :: b :: c :: as :=
    List.mem_cons_of_mem _ (List.mem_cons_of_mem _ List.mem_cons_self)
  have hdict : _ ∈ RecordPart.allLeaves profileParts :=
    RecordPart.mem_allLeaves List.mem_cons_self (List.mem_singleton.mpr rfl)
  have hprofile : _ ∈ RecordPart.allLeaves defaultsParts :=
    RecordPart.mem_allLeaves List.mem_cons_self hdict
  have hconfig : _ ∈ RecordPart.allLeaves configParts :=
    RecordPart.mem_allLeaves (hthird _ _ _ _) hprofile
  exact hconfig

theorem mem_of_lookup {α β : Type} [DecidableEq α] {a : α} {b : β} {d : List (α × β)}
    (h : d.lookup a = some b) : (a, b) ∈ d := by
  obtain ⟨l₁, l₂, rfl, -⟩ := List.lookup_eq_some_iff.mp h
  simp

/-- Over a dictionary that is not empty, and without a severity that has no text. -/
theorem lookup_of_follows {s : Spot} {c c' : Config} (h : Leaf.AllFollow leaves s c c')
    (hc : c.defaults.severity.byVisibility ≠ []) (hc' : c'.faults = []) (v : Visibility) :
    c'.defaults.severity.byVisibility.lookup v =
      severityAfter s (c.defaults.severity.byVisibility.lookup v) v := by
  have hleaf := h _ byVisibility_mem_leaves
  simp only [Leaf.Follows, Leaf.within, Leaf.whole, id] at hleaf
  unfold severityAfter
  cases hfound : s.at? ["defaults", "severity", "by_visibility"] with
  | none =>
    rw [hfound] at hleaf
    exact congrArg (List.lookup v) hleaf
  | some t =>
    rw [hfound] at hleaf
    simp only [dictChange, List.isEmpty_eq_false_iff.mpr hc] at hleaf
    simp only
    split at hleaf
    · rename_i hnull
      rw [hleaf, if_pos hnull]
      rfl
    · rename_i hnull
      rw [if_neg hnull, hleaf]
      refine (lookup_foldl_enter _ _ _ v _ _).resolve_right fun hfresh => ?_
      rw [← hleaf] at hfresh
      have hscale := (severities_of_faults_eq_nil hc').visibilities v _ (mem_of_lookup hfresh)
      exact absurd hscale (by decide)

/-- **A document changes what it mentions, and nothing else.**  Every leaf of an accepted
configuration follows the document over the default configuration, the leaves are all of the
configuration, and a visibility has the severity that the document gives it, or else its default
one.  A stream without a document is like a null one. -/
theorem parse_overlays_default {text : String} {c : Config} {root : Option Node}
    (h : parse text = .ok c) (hroot : readDocument text.toUTF8 = .ok root)
    (hmerge : (root.getD .null).Throughout Node.Unmerged) :
    Leaf.AllFollow leaves (.of [] (root.getD .null)) default c ∧ Leaf.Full leaves ∧
      ∀ v, c.defaults.severity.byVisibility.lookup v = severityAfter (.of [] (root.getD .null))
        (default.defaults.severity.byVisibility.lookup v) v := by
  unfold parse at h
  obtain ⟨c₀, hdecode, hchecked⟩ := bind_eq_ok_iff.mp h
  obtain ⟨hvalid, rfl⟩ := (Files.checked_eq_ok_iff _ _ _).mp hchecked
  have hfollow := decodeBytes_follows (mapError_eq_ok_iff.mp hdecode) hroot hmerge
  have hfaults := (validate_eq_ok_iff c).mp hvalid
  exact ⟨hfollow, full_leaves, lookup_of_follows hfollow (by decide) hfaults⟩

/-- A text that sets the root, leaves the scan as it was, gives one visibility another severity, and
lists rules of which one is null. -/
def partialText : String :=
  "project_root: docs\nscan: ~\ndefaults:\n  severity:\n    by_visibility:\n" ++
    "      PROTECTED: INFO\nrules:\n  - id: doc-name-prefix\n  - ~\n"

theorem parse_overlays_default_partial : ∃ c root, parse partialText = .ok c ∧
    readDocument partialText.toUTF8 = .ok root ∧
    (Leaf.AllFollow leaves (.of [] (root.getD .null)) default c ∧ Leaf.Full leaves ∧
      ∀ v, c.defaults.severity.byVisibility.lookup v = severityAfter (.of [] (root.getD .null))
        (default.defaults.severity.byVisibility.lookup v) v) ∧
    c.projectRoot = "docs" ∧ c.scan = default.scan ∧ c.rules.map (·.id) = ["doc-name-prefix"] ∧
    c.defaults.severity.byVisibility = [(.pub, .error), (.prot, .info)] := by
  obtain ⟨hparse, hread⟩ : (parse partialText).toOption.any (fun c =>
        decide (c.projectRoot = "docs" ∧ c.scan = default.scan ∧
          c.rules.map (·.id) = ["doc-name-prefix"] ∧
          c.defaults.severity.byVisibility = [(.pub, .error), (.prot, .info)])) = true ∧
      (readDocument partialText.toUTF8).toOption.any (fun root =>
        decide ((root.getD .null).Throughout Node.Unmerged)) = true := by
    decide +kernel
  obtain ⟨c, hc, hvalues⟩ := exists_eq_ok_of_any hparse
  obtain ⟨root, hroot, hmerge⟩ := exists_eq_ok_of_any hread
  exact ⟨c, root, hc, hroot, parse_overlays_default hc hroot hmerge, hvalues⟩

end DocAudit.Config
